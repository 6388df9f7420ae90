import Loom.Text.Ranges

/-!
# Case Tables

Which letter above ASCII pairs with which. Pairs come in runs with a constant
distance, either side by side or every second character; the few letters whose
counterpart is more than one character are listed apart.
-/

namespace Loom.Text

/-- Every `stride`-th character from `first` to `last`, each `distance` away
    from its counterpart. -/
structure CaseRun where
  first : Nat
  last : Nat
  stride : Nat
  distance : Int

namespace CaseRun

def holds (r : CaseRun) (n : Nat) : Bool :=
  r.first ≤ n && n ≤ r.last && (n - r.first) % r.stride == 0

/-- Runs as the tables write them: the step from the last letter of a run to the first of the
    next, the step from there to its last letter, and the distance. The second is doubled, and
    odd if every second letter is meant; so is the third, and odd if it is below zero. -/
def ofSteps (last : Nat) : List Nat → List CaseRun
  | gap :: span :: distance :: rest =>
    let first := last + gap
    let next := first + span / 2
    ⟨first, next, span % 2 + 1, if distance % 2 = 0 then distance / 2 else -(distance / 2) - 1⟩
      :: ofSteps next rest
  | _ => []

def ofRows (rows : List Nat) : List CaseRun :=
  ofSteps 0 (rows.flatMap rowNumbers)

/-- The counterparts of a run, with the letters of the run as theirs. -/
def back (r : CaseRun) : CaseRun :=
  ⟨Int.toNat (r.first + r.distance), Int.toNat (r.last + r.distance), r.stride, -r.distance⟩

end CaseRun

def lowerRuns : List CaseRun :=
  CaseRun.ofRows [
    0x1012BE022016AE014AE016BA032012BE222014BE022514CE0421911EB0221B9325B3219425B92C0894920894D08B,
    0x120140220140092042016EE022512EE222014EE022034EE022014EE0221914DE022DE016CE042012CE016CE026BE,
    0x1252CC21A169A0129A0158E022030A9AD0158D022016A9AD00921C238C02259917D90118B0225140321C321C1402,
    0x12921891E0896F10CA6B138C4320159022037E90625D190A04C0890A20890C26F92208A0229942499070DB019204,
    0x118D7FDB9437FDB94A93BAC0A2910CEFAA6BA3AB908BCB0608BCB0208BCB29929DD0C9299325FA321B16B0221D9,
    0x11A013AA217921979691979691979691B79691979594979291979691979693979291979692925FA25FDDB02921DC,
    0x13EC9204A0C6B6D0F0739A8C015FD8C041FADB02DC1A013FB217FB24959017BB217925978B21792491A013DA649,
    0x1258B15F9AD2192032023F8AD015F8AD011FF9D017E8AD02219359F9D0139FE9015DF9D02201E0C96B91ECB4E2E,
    0x115AADCA015BADCA0178ADCA0225C4253799DCA0220521A1788A9A02253921F9421B09A25E4A21B969DCF2052519,
    0x12E4DCBD205B2562072517D9A9A0158ADCA017B90225B108DB011D8DCA013A9DCA013C8DCA0278ADCA0118ADCA0,
    0x14892891CADF0896F18EAD0896F6DFD08A4C93DBB699226994926994B26994A5BA0A968919A0A969968BA089]

def upperRuns : List CaseRun :=
  CaseRun.ofSteps 0 (textNumbers "gX!~1fa!l2f1!n:f)!#%!#%!#J!#j6!gKfb!b1!f_#!fT&!f@#!fN=!gN#!gB&
!gdig.!mh>#!mh<#!mh*#$mh%#!mh(#!mgZ#!mf,#!fz|&m6!fXiF!nn,")
    ++ lowerRuns.map CaseRun.back

/-- Letters whose initial form differs from their capital form. A distance of
    zero marks a letter that already is an initial form. -/
def titleRuns : List CaseRun :=
  CaseRun.ofSteps 0 <| textNumbers
    "l&!$#!!#!##!$#!!#!##!$#!!#!#H!$#!!#!#gp@f7!%&!go#13#1!#13#1!#13#1!&!5,!!*!5,!!J!5,!!"

/-- Forms of more than one character as the tables write them: the step from one letter to the
    next, and three characters, the last of them zero if there are two. -/
def formsOfSteps (last : Nat) : List Nat → List (Nat × List Nat)
  | gap :: a :: b :: c :: rest =>
    (last + gap, a :: b :: if c = 0 then [] else [c]) :: formsOfSteps (last + gap) rest
  | _ => []

/-- The Greek vowels with an iota below: for each eight small letters and eight capital ones. -/
def iotaForms : List (Nat × List Nat) :=
  [7944, 7976, 8040].zipIdx.flatMap fun (vowel, row) =>
    (List.range 16).map fun i => (8064 + 16 * row + i, [vowel + i % 8, 921])

def upperSpecial : List (Nat × List Nat) :=
  iotaForms ++ (formsOfSteps 0 <| textNumbers "hBf6f6!fMoaf1!gJf-q/!kCs<q+q#CsHq+q#l:yXz5!ii2f+qT!#
f7q+!#f:q-!#f<q-!#f#oc!gYsHq6!$sHq6q!$sHq6q#$sHq6r$f?jk^s<!#s4s<!#s)s<!$s4r$!#s4r$s<(s4s<!)jl-s<!#s:
s<!#s,s<!$s:r$!#s:r$s<(s:s<!)s<q+q!#s<q+q#%s<r$!#s<q+r$.sHq+q!#sHq+q##sDq6!$sHr$!#sHq+r$.jl^s<!#sLs<
!#s2s<!$sLr$!#sLr$s<(sLs<!fqq&f)f)!#f)f,!#f)f/!#f)f)f,#f)f)f/#f6f7!#f6f7!0z&z)!#z&yX!#z&y_!#z1z)!#z&
yb!")

def titleSpecial : List (Nat × List Nat) :=
  formsOfSteps 0 <| textNumbers "hBf6fV!wKyX|$!imNjk^r(!$s)r(!%s4r$r(.jl-r(!$s,r(!%s:r$r(Njl^r(!$s2
r(!%sLr$r(fqq,f)fI!#f)fL!#f)fO!#f)fIfL#f)fIfO#f6fW!#f6fW!0z&zY!#z&zH!#z&zN!#z1zY!#z&zP!"

def casedRanges : Ranges :=
  .ofText "gM!.!(!)9$A$h$$%(h2$F+#B&fD!N%%#%%$!*!$$$!$6$f5$g-,gH$H-Kfy;H$!)!%M%$oDf8%(fo%++M%$f#gdf
#i8%(%H%(%*$!$!$!$A%W$)$!&$$)&%%((/)$$)fX!1!4/fI!(!%,$!&&*!$!$!$%$((!%%)&(!5B&#qUVfi:hG*%&#0H$!)!yi6
P6@g(fH&%$^)#$!$&?#$$qYM$/+f2rj#)0&u-<*<wIf2fDF(FfX-$1$)$#$-$1$)$#l&!%$$L$+x)U1Uf|QdsjDdu|#f7$f)$#%!
%#%%$.$!$)$f!$%%*$)$>$%$&$!&)$j6%;$;$A$;$A$;$A$;$A$;$*fiX,$6ftEf%flP<*<*<"

def caseIgnorableRanges : Ranges :=
  .ofText "gK!(!$!(!%#l[gd(#(!-#$!ha)h3!)!UO$!$#$#$!P!/(.-$!G!.74!fI*$,$%E!$!B=f?-_-(!%!<:O$P!+#**M
][!$!(*(!&).#1!3!_!(%,!8#>!%#^!(#(#%$&!B#&!/#^!(&$#(!8#:($!_!%!$%,!+#/#B!c!0!V!&![!$$)$$%+#/#A!_!%!*
!)#8#@#^#(%,!8#A!f,!+$$!f>!%)/+fF!%+-!$(f.#?!$!$![0$&$#)-$F-!fJ%$($#%#=#($4%1!%#*!3!fB!nD$sV$A#B#B#f
##$),!%-&!)!Q&W!f$#F!fZ$(#-!*$h?#%!_!$)$!$!%**,%!K!,AU%T!$&$!)!L+0#D%%#$$]!$#&!$$_*%#f#(f6$$/$)(!*!&
#Vc1!FfGkc!$$/$1$1$1#0&,#.!%!%&U&$,$!1!4/WCf|/#fU$fc!3!fDBS!l9!H%&&)!fA(fA$wq:!xF(i2!fF%$,$!@%f4#2Df
2!;$fK$&#,!&!(!=#)!g;#>41!J*=-R$T!%%%#5!9#f%(%#%#0!,!G!/!W!$$%#)#$!?!2#)#$!fH&-$f^!%!(!riT!g73mc2&!0
2F!%!gM!+!*!/!G!$!S!Q#f&!9$m$!hF!g9&u)($L$+n*$$#)%L$(!gI#mc%k&#g=-U%fa!Z1M!%#.$U%%#%!(!.!V$H&$*d!0#X
+.%%!fC$%!$#*!gD!&*9#^#&!I)&&h&*%$$!;!f8($!(#$#hR%*#$#?#f9*%!$#fN!$!%($!fI$%%$&i&+$#i##$!(!g4%%#(!D,
L(%%,!-(%$R/$#k:)$($!f68%)$#$#f_(&!$#$)$!f,#&!$!j?#hqa+ng[&a)-%u/!f!3f##$#ou/%$)$#ggB#$%hf@P%9mD$-2%
)B%g8$fkaY(T,!2!:&$1z4)$3%)$#$&i)0jT!c%~D)fQ*fwS&zoe$!BfBg#hR"

/-!
### Letter Case

Small, capital and initial forms of text. Most letters have one counterpart; a
few have a form of several characters, so the forms of a text are built
character by character and may change its length. The capital sigma is the one
letter whose small form depends on where it stands: it takes its final form at
the end of a word.

Keywords of the outline language are ASCII, but a reader that ignores case also
takes four letters from outside ASCII for their ASCII relatives. `sameLetter`
is that comparison.
-/

def isCased (c : Char) : Bool :=
  if c.toNat < 128 then c.isAlpha else casedRanges.holds c

/-- Characters that the search for a word's neighbouring letter skips. -/
def isCaseIgnorable (c : Char) : Bool :=
  if c.toNat < 128 then c == '\'' || c == '.' || c == ':' || c == '^' || c == '\x60'
  else caseIgnorableRanges.holds c

def counterpart? (runs : List CaseRun) (n : Nat) : Option Char :=
  (runs.find? fun r => r.holds n).map fun r => Char.ofNat (Int.toNat (n + r.distance))

def special? (table : List (Nat × List Nat)) (n : Nat) : Option (List Char) :=
  (table.find? fun row => row.1 == n).map fun row => row.2.map Char.ofNat

def lowerChar (c : Char) : Char :=
  if c.toNat < 128 then c.toLower else (counterpart? lowerRuns c.toNat).getD c

/-- `İ` alone has a small form of two characters. -/
def lowerForm (c : Char) : List Char :=
  if c == '\u0130' then ['i', '\u0307'] else [lowerChar c]

def upperForm (c : Char) : List Char :=
  if c.toNat < 128 then [c.toUpper]
  else (special? upperSpecial c.toNat).getD [(counterpart? upperRuns c.toNat).getD c]

def titleForm (c : Char) : List Char :=
  if c.toNat < 128 then [c.toUpper]
  else
    match special? titleSpecial c.toNat, counterpart? titleRuns c.toNat with
    | some cs, _ => cs
    | none, some d => [d]
    | none, none => upperForm c

/-- Whether a sigma with these neighbours ends a word. The text before it is
    given backwards, so both neighbours stand at the head. -/
def endsWord (before after : List Char) : Bool :=
  (match before.dropWhile isCaseIgnorable with
    | c :: _ => isCased c
    | [] => false) &&
  (match after.dropWhile isCaseIgnorable with
    | c :: _ => !isCased c
    | [] => true)

/-- The small form of a character between its neighbours. -/
def lowerBetween (before : List Char) (c : Char) (after : List Char) : List Char :=
  if c == '\u03A3' then [if endsWord before after then '\u03C2' else '\u03C3'] else lowerForm c

def lowerFrom (before : List Char) : List Char → List Char
  | [] => []
  | c :: cs => lowerBetween before c cs ++ lowerFrom (c :: before) cs

def titleFrom (before : List Char) (inWord : Bool) : List Char → List Char
  | [] => []
  | c :: cs =>
    (if inWord then lowerBetween before c cs else titleForm c) ++
      titleFrom (c :: before) (isCased c) cs

def lower (s : String) : String :=
  String.ofList (lowerFrom [] s.toList)

def upper (s : String) : String :=
  String.ofList (s.toList.flatMap upperForm)

/-- Every run of letters starts with an initial form and goes on in small
    letters. -/
def title (s : String) : String :=
  String.ofList (titleFrom [] false s.toList)

def capitalize (s : String) : String :=
  match s.toList with
  | [] => ""
  | c :: cs => String.ofList (titleForm c ++ lowerFrom [c] cs)

/-- Whether a character is the given small ASCII letter, or that ASCII
    character, when case is ignored. The long s, the Kelvin sign and the two
    Turkish letters i count as their ASCII relatives. -/
def sameLetter (letter c : Char) : Bool :=
  c.toLower == letter || (letter == 's' && c == '\u017F') || (letter == 'k' && c == '\u212A') ||
    (letter == 'i' && (c == '\u0131' || c == '\u0130'))

/-- An ASCII letter when case is ignored. -/
def isLetterLike (c : Char) : Bool :=
  c.isAlpha || c == '\u017F' || c == '\u212A' || c == '\u0131' || c == '\u0130'

end Loom.Text
