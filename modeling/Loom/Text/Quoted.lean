import Loom.Text.Slice

/-!
# Printable Characters

A character that quoted text shows as it is. The others (controls, separators
other than the space, unassigned code points) are written as escapes.
-/

namespace Loom.Text

def printableRanges : Ranges :=
  .ofText "gD.$p,%(()$!$6$k/$H%T%$$Y,=((58$gd$R%^%fG2^%S%1$>%!$-)A-f,$gC$*%#%8$)$!&%%+%#%%,!(#$&%;%
$$((#%8$)$#$#$#%!$&(#%$&!+%$!+3.$$+$$$8$)$#$&%,$$$$%!3%%.+)$$$*%#%8$)$#$&%+%#%$+$(#$&%4.#$(&$$%&#$!$
#&#&$&.(&&$$%%!*!27)/$$$9$2%+$$$%+#$$%!%%%,+8$$$9$,$&%+$$$%+#*#$%%,$#1/$$$U$$$((2%<$$$4&:$+$!%)&!(($
!$**,%$0](?I#$!$&$:$!$9%&$!$(%,%%Df*$F(I$F$1$/Ih($!)!%j[$%%)$!$%%K$%%C$%%)$!$%%1$[$%%f$%B&<*f8%(%nd$
>&f;+8-:-60/$$$#0f@%,*,*0$-*f;+M)f(.A$.(.(!&L%&/N(<*-&b%f!$?%-*,*0%AUf/&Q$fV,_&1&_+M%-,M)m8%(%H%(%*$
!$!$!$A%W$1$0%($5%$$+5:,Q5#%=$/&C3C3g.(o9=-9fi6%B$j?)O$!)!%Z+#2:-)$)$)$)$)$)$)$)$fbF<$f;0h8>.)c$f8%f
I)M$f@$f60Q$xfO&Y-j>8gZ,h-)#$!$&<^&,*Z,f(,.*fV/@&f0$-(C$Y-0%,%fI<>.(%(%(-)$)$_(fb%,*lkF09(Sjq(jP%fLJ
)0&)<$&$!$#$#$fa4ka%X+!DL*U$5$%(&$g)(gb&(%(%(%$&)$)1#%.$<$5$#$1%0Ff^)$(O&f:$/&!SPg%?&S3>(F-@)M)@$G(0
Ng@%,*F(F(J,V/.$1$)$#$-$1$)$#f&iY-8.*<($L$+f)(%!$N$#&!%9$f*,+T5$#)C&=)!f#Z(6%T$#)*$$$?%$(,+++dDI(.-X
&?%=)<+%0)f4f+[U1U+P,,iJA$L$$%#f2J,L:<J>89-f0(F-b$&1;+,*W$4,I-fB$6/4$Nf$)$!$%$1$-*^),*%$*%#%8$)$#$&$
,%#%$%!*!))%)&&g/f>$&Bf*,,gJX%HFf&/,*/7]*,Z=%1(9g^_fHf50*%!%*$#$@$#%.-,f**%P%-?f*,f51f+i++$O$0.?&B%8
$0f-)$#$N&!$#$+,,*($#$G$#$(+,iZ;g[!3T1s=fJfQ$&/h%fv0fE1uQgt5n)js^m[+A$,(f3$,*@%(.f(.,$)$7)5oTf=fIf-(
[+3f#&/#2h~Z,x8N+jxK%$)$#$iEQ$5%,k.fq(fM)/&++,%%hfDP%9-fVbhX.I%f,,fR9f(g>60f9-;g+f7$f)$#%!%#%%$.$!$)
$f!$%%*$)$>$%$&$!&)$j6%iF%ob3&$1v4AhE)$3%)$#$&h9O&0%,(#j#A5])!xD)$%$#$1$h&%2Mf.(,(#q5f%f0ah%%$=$#$!%
!$,$%$!$!*!(!$!$!$$$#$!%!$!$!$!$!$#$!%%$)$%$%$!$,$3)$$&$3X#i2N(fF01%1$1$G.gP]?1N(++#2(g>t:)2&/&fV0f;
+.(!3.(Z,,*J,@%#f2j600%&&&&)-?&-)(.,**,)-g5$YI,u*fhxBDgu[+h@%hw#2iySgeCm@~Fhj-xokYhR"

def isPrintable (c : Char) : Bool :=
  if c.toNat < 128 then 32 ≤ c.toNat && c.toNat < 127 else printableRanges.holds c

/-!
### Quoted Text

Text as it is shown inside a list, an object or an error message: between
single quotes, or between double quotes if it holds single quotes and no double
ones. The quote in use, the backslash and characters that cannot be printed are
written as escapes.
-/

def hex (width n : Nat) : List Char :=
  let ds := Nat.toDigits 16 n
  List.replicate (width - ds.length) '0' ++ ds

/-- The quote for a text: double only if it saves an escape. -/
def quoteFor (s : List Char) : Char :=
  if s.contains '\'' && !s.contains '"' then '"' else '\''

def escapeChar (quote c : Char) : List Char :=
  if c == quote || c == '\\' then ['\\', c]
  else if c == '\t' then ['\\', 't']
  else if c == '\n' then ['\\', 'n']
  else if c == '\r' then ['\\', 'r']
  else if isPrintable c then [c]
  else if c.toNat < 0x100 then ['\\', 'x'] ++ hex 2 c.toNat
  else if c.toNat < 0x10000 then ['\\', 'u'] ++ hex 4 c.toNat
  else ['\\', 'U'] ++ hex 8 c.toNat

def quoted (s : String) : String :=
  let quote := quoteFor s.toList
  String.ofList (quote :: s.toList.flatMap (escapeChar quote) ++ [quote])

/-- A byte shows as the ASCII character it stands for, if that can be printed. -/
def escapeByte (quote : Char) (b : UInt8) : List Char :=
  if b.toNat < 127 then escapeChar quote (Char.ofNat b.toNat) else ['\\', 'x'] ++ hex 2 b.toNat

def quotedBytes (bs : List UInt8) : String :=
  let quote := quoteFor (bs.map fun b => Char.ofNat b.toNat)
  String.ofList ('b' :: quote :: bs.flatMap (escapeByte quote) ++ [quote])

end Loom.Text
