import Loom.Proofs.Heads

/-!
# Comparands

A condition in words compares a name with an operand. The operand is read, printed and read
again, and the second reading knows nothing of the quotes: a text in quotes that looks like a
name or a number is compared as the variable or the number that it looks like. A name and a
whole number come through as they are.
-/

namespace Loom.Agent

open Loom.Text Loom.Text.Pattern List Decimal Outline

/-- The name, the comparison and the operand that a condition states. -/
def sidesOf? (condition : String) : Option (String × String × String) :=
  (comparisons.findSome? fun (p, op) =>
    (p.match? (bareCondition ("if" ++ " " ++ condition))).map fun m => (m, op)).map
      fun (m, op) => (m.group "left", op, m.group "right")

theorem comparativeOf?_of_sidesOf? {condition name op value : String} {v : Value}
    (hsides : sidesOf? condition = some (name, op, value)) (hv : readOperand value = .ok v) :
    comparativeOf? true "if" condition = some ⟨name, op, v⟩ := by
  obtain ⟨⟨m, op'⟩, hfind, hparts⟩ := Option.map_eq_some_iff.mp hsides
  obtain ⟨rfl, rfl, rfl⟩ : m.group "left" = name ∧ op' = op ∧ m.group "right" = value := by
    simpa using hparts
  have hread : readComparative ("if" ++ " " ++ condition) =
      .ok (some ⟨m.group "left", op', v⟩) := by
    unfold readComparative
    dsimp only
    rw [hfind]
    dsimp only
    rw [hv]
    rfl
  rw [comparativeOf?, if_pos rfl, hread]

/-! ### Kinds of operands -/

section Kinds

variable {s : String} {c : Char}

theorem digitValue?_of_isDigit (h : c.isDigit) :
    digitValue? c = some (c.toNat - '0'.toNat) := by
  have hbounds : 48 ≤ c.toNat ∧ c.toNat ≤ 57 := by
    simp only [Char.isDigit, Bool.and_eq_true, decide_eq_true_eq, ge_iff_le,
      UInt32.le_iff_toNat_le] at h
    exact h
  rw [digitValue?, if_pos (by omega)]
  exact if_pos h

theorem head_of_startsWith {q : String} (hq : q.toList = [c])
    (h : startsWith s q) : s.toList.head? = some c := by
  rw [startsWith, hq] at h
  cases hs : s.toList with
  | nil => rw [hs] at h; exact absurd h Bool.false_ne_true
  | cons d ds =>
    rw [hs, dropStart?] at h
    by_cases hcd : (c == d) = true
    · rw [eq_of_beq hcd]
      rfl
    · rw [if_neg hcd] at h
      cases h

theorem last_of_endsWith {q : String} (hq : q.toList = [c])
    (h : endsWith s q) : s.toList.getLast? = some c := by
  have hstart : startsWith (String.ofList s.toList.reverse) q := by
    rw [endsWith, hq] at h
    rw [startsWith, hq, String.toList_ofList]
    exact h
  rw [← head_of_startsWith hq hstart, String.toList_ofList, head?_reverse]

theorem strip_of_unblank (h : ∀ c ∈ s.toList, isBlank c = false) : strip s = s :=
  strip_of_trimmed ⟨fun c hc => h c (mem_of_mem_head? hc), fun c hc => h c (mem_of_getLast? hc)⟩

theorem ends_of_isQuoted (h : isQuoted s) : ∃ q, (q = '\'' ∨ q = '"') ∧
    s.toList.head? = some q ∧ s.toList.getLast? = some q := by
  rw [isQuoted, Bool.or_eq_true, Bool.and_eq_true, Bool.and_eq_true] at h
  rcases h with ⟨hstart, hend⟩ | ⟨hstart, hend⟩
  · exact ⟨_, .inl rfl, head_of_startsWith rfl hstart, last_of_endsWith rfl hend⟩
  · exact ⟨_, .inr rfl, head_of_startsWith rfl hstart, last_of_endsWith rfl hend⟩

theorem head_of_number (h : (plainNumber.full? s).isSome = true) :
    ∃ c, s.toList.head? = some c ∧ isDigit c = true := by
  obtain ⟨c, cs, hs, hc, _⟩ := (fits_iff (p := plainNumber ++ ended) (by decide) s).mp h
  exact ⟨c, by rw [show s.toList = c :: cs from hs]; rfl, hc⟩

theorem isQuoted_of_number (h : (plainNumber.full? s).isSome = true) : isQuoted s = false := by
  obtain ⟨c, hc, hdigit⟩ := head_of_number h
  refine Bool.eq_false_iff.mpr fun hquoted => ?_
  obtain ⟨q, hq, hhead, _⟩ := ends_of_isQuoted hquoted
  obtain rfl := Option.some_inj.mp (hc.symm.trans hhead)
  rcases hq with rfl | rfl <;> exact absurd hdigit (by decide)

theorem readOperand_of_isQuoted (h : isQuoted s = true) :
    readOperand s = .ok (.str (inside s)) := by
  obtain ⟨q, hq, hhead, hlast⟩ := ends_of_isQuoted h
  have hblank : isBlank q = false := by rcases hq with rfl | rfl <;> decide
  have hstrip : strip s = s := strip_of_trimmed
    ⟨fun c hc => Option.some_inj.mp (hc.symm.trans hhead) ▸ hblank,
      fun c hc => Option.some_inj.mp (hc.symm.trans hlast) ▸ hblank⟩
  have hnone : (plainNumber.full? s).isSome = false := Bool.eq_false_iff.mpr fun hnumber => by
    rw [isQuoted_of_number hnumber] at h
    exact Bool.false_ne_true h
  rw [readOperand, hstrip, hnone, h]
  rfl

theorem chars_of_isName (h : isName s = true) : ∃ c cs, s.toList = c :: cs ∧
    isDigit c = false ∧ (c ≠ '\'' ∧ c ≠ '"') ∧ ∀ d ∈ c :: cs, isBlank d = false := by
  rw [isName] at h
  cases hs : s.toList with
  | nil => rw [hs] at h; exact absurd h Bool.false_ne_true
  | cons c cs =>
    rw [hs] at h
    rw [Bool.and_eq_true, all_eq_true] at h
    obtain ⟨hc, hcs⟩ := h
    have hfirst : isBlank c = false ∧ isDigit c = false ∧ c ≠ '\'' ∧ c ≠ '"' := by
      rw [Bool.or_eq_true, beq_iff_eq] at hc
      rcases hc with halpha | rfl
      · exact ⟨isBlank_of_isAsciiLetter halpha, isDigit_of_isAsciiLetter halpha,
          by rintro rfl; exact absurd halpha (by decide),
          by rintro rfl; exact absurd halpha (by decide)⟩
      · decide
    have hrest : ∀ d ∈ cs, isBlank d = false := fun d hd => by
      have hd := hcs d hd
      simp only [Bool.or_eq_true, beq_iff_eq] at hd
      rcases hd with (hd | rfl) | rfl
      · exact (of_isAlphanum hd).1
      · decide
      · decide
    exact ⟨c, cs, rfl, hfirst.2.1, hfirst.2.2, forall_mem_cons.mpr ⟨hfirst.1, hrest⟩⟩

theorem readOperand_of_isName (h : isName s = true) :
    readOperand s = .ok (.str s) ∧ readTerm s = .ok (nameExpr s) := by
  obtain ⟨c, cs, hs, hdigit, hquotes, hblank⟩ := chars_of_isName h
  have hhead : s.toList.head? = some c := by rw [hs, head?_cons]
  have hstrip : strip s = s := strip_of_unblank (hs ▸ hblank)
  have hnone : (plainNumber.full? s).isSome = false := Bool.eq_false_iff.mpr fun hnumber => by
    obtain ⟨d, hd, hd'⟩ := head_of_number hnumber
    obtain rfl := Option.some_inj.mp (hhead.symm.trans hd)
    rw [hdigit] at hd'
    exact Bool.false_ne_true hd'
  have hquoted : isQuoted s = false := Bool.eq_false_iff.mpr fun hquoted => by
    obtain ⟨q, hq, hd, _⟩ := ends_of_isQuoted hquoted
    obtain rfl := Option.some_inj.mp (hhead.symm.trans hd)
    exact hq.elim hquotes.1 hquotes.2
  rw [readOperand, readTerm, hstrip, hnone, hquoted, h]
  exact ⟨rfl, rfl⟩

end Kinds

/-! ### Texts that are read again -/

def numberExpr (v : Value) : Value := .obj [("type", .str "Number"), ("value", v)]

/-- A text that is still a text once it is read again. -/
def staysText (s : String) : Bool :=
  strip s == s && !isQuoted s && !(plainNumber.full? s).isSome && !isName s &&
    !contains (lower s) "name"

theorem inside_strip_ne {s : String} (h : isQuoted (strip s) = true) : inside (strip s) ≠ s := by
  have hle : (strip s).toList.length ≤ s.toList.length := by
    rw [strip, stripWhere, String.toList_ofList, stripChars]
    have hdrop := congrArg length (dropEndWhile_append isBlank (s.toList.dropWhile isBlank))
    have hwhile := (dropWhile_sublist isBlank (l := s.toList)).length_le
    rw [length_append] at hdrop
    omega
  have hpos : 0 < (strip s).toList.length := length_pos_of_ne_nil fun hnil => by
    rw [String.toList_inj.mp (hnil.trans String.toList_empty.symm)] at h
    exact absurd h (by decide)
  intro heq
  have hlength := congrArg (fun s : String => s.toList.length) heq
  rw [inside] at hlength
  simp only [String.toList_ofList, length_dropLast, length_drop] at hlength
  omega

theorem readTerm_eq_text_iff {s : String} {t : Value} (h : readTerm s = .ok t) :
    t = textExpr s ↔ staysText s = true := by
  have htext (a b : String) : textExpr a = textExpr b ↔ a = b := by
    simp [textExpr]
  have hname (a b : String) : nameExpr a ≠ textExpr b := by
    simp [nameExpr, textExpr]
  have hnumber (v : Value) (b : String) : numberExpr v ≠ textExpr b := by
    simp [numberExpr, textExpr]
  simp only [staysText, Bool.and_eq_true, Bool.not_eq_true', beq_iff_eq]
  -- A text that stays is read as it is, so each case but the last contradicts one of the parts.
  rw [readTerm] at h
  split at h
  · rename_i hquoted
    cases h
    rw [htext]
    refine iff_of_false (inside_strip_ne hquoted) ?_
    rintro ⟨⟨⟨⟨hs, hnot⟩, _⟩, _⟩, _⟩
    rw [hs, hnot] at hquoted
    exact Bool.false_ne_true hquoted
  · split at h
    · rename_i hdigits
      obtain ⟨v, _, h⟩ := of_bind_ok h
      cases h
      refine iff_of_false (hnumber v s) ?_
      rintro ⟨⟨⟨⟨hs, _⟩, hnot⟩, _⟩, _⟩
      rw [hs, hnot] at hdigits
      exact Bool.false_ne_true hdigits
    · split at h
      · rename_i hisname
        cases h
        refine iff_of_false (hname _ s) ?_
        rintro ⟨⟨⟨⟨hs, _⟩, _⟩, hnot⟩, _⟩
        rw [hs, hnot] at hisname
        exact Bool.false_ne_true hisname
      · split at h
        · rename_i hcontains
          cases h
          refine iff_of_false (hname _ s) ?_
          rintro ⟨⟨⟨⟨hs, _⟩, _⟩, _⟩, hnot⟩
          rw [hs, hnot] at hcontains
          exact Bool.false_ne_true hcontains
        · rename_i hquoted hdigits hisname hcontains
          cases h
          rw [htext]
          refine ⟨fun hs => ?_, fun h => h.1.1.1.1⟩
          rw [hs] at hquoted hdigits hisname hcontains
          exact ⟨⟨⟨⟨hs, Bool.eq_false_iff.mpr hquoted⟩, Bool.eq_false_iff.mpr hdigits⟩,
            Bool.eq_false_iff.mpr hisname⟩, Bool.eq_false_iff.mpr hcontains⟩

section Numerals

variable {cs : List Char}

theorem digitsOf?_of_isDigit (hne : cs ≠ []) (h : ∀ c ∈ cs, c.isDigit = true) :
    Decimal.digitsOf? cs = some (cs.map fun c => c.toNat - '0'.toNat) := by
  induction cs with
  | nil => exact absurd rfl hne
  | cons c cs ih =>
    have hc := digitValue?_of_isDigit (h c mem_cons_self)
    cases cs with
    | nil => rw [digitsOf?, hc]; rfl
    | cons d ds =>
      have hline : d ≠ '_' := fun heq =>
        absurd (h d (mem_cons_of_mem _ mem_cons_self)) (by rw [heq]; decide)
      rw [digitsOf?, hc, ih (cons_ne_nil _ _) fun c hc => h c (mem_cons_of_mem _ hc)]
      · rfl
      · exact fun hnil => absurd hnil (cons_ne_nil _ _)
      · exact fun _ heq => hline (List.cons.inj heq).1

theorem signOf_of_isDigit (h : ∀ c ∈ cs, c.isDigit = true) : Decimal.signOf cs = (false, cs) := by
  unfold signOf
  split
  · exact absurd (h _ mem_cons_self) (by decide)
  · exact absurd (h _ mem_cons_self) (by decide)
  · rfl

theorem readNumber_repr {n : Nat} {v : Value} (h : readNumber (Nat.repr n) = .ok v) :
    v = .int n := by
  have hlist : (Nat.repr n).toList = Nat.toDigits 10 n := Nat.toList_repr
  have hascii : ∀ c ∈ Nat.toDigits 10 n, c.isDigit = true := fun c hc =>
    Nat.isDigit_of_mem_toDigits (by decide) (by decide) hc
  have hpoint : (Nat.repr n).contains '.' = false := by
    rw [String.contains_char_eq, decide_eq_false_iff_not, hlist]
    exact fun hmem => absurd (hascii _ hmem) (by decide)
  have hmargin : ∀ c ∈ Nat.toDigits 10 n, isMargin c = false := fun c hc => by
    rw [isMargin, isBlank_of_isDigit
      (by rw [isDigit, digitValue?_of_isDigit (hascii c hc)]; rfl), Bool.false_and]
  have hnumeral : numeralOf (Nat.repr n) = (false, Nat.toDigits 10 n) := by
    have htrim : Trimmed isMargin (Nat.toDigits 10 n) :=
      ⟨fun c hc => hmargin c (mem_of_mem_head? hc), fun c hc => hmargin c (mem_of_getLast? hc)⟩
    rw [numeralOf, hlist, stripChars_of_trimmed htrim, signOf_of_isDigit hascii]
  have hvalue : ofDigits ((Nat.toDigits 10 n).map fun c => c.toNat - '0'.toNat) = n := by
    rw [ofDigits, foldl_map]
    exact Nat.ofDigitChars_toDigits (by decide) (by decide)
  have hread : readInt? (Nat.repr n) = none ∨ readInt? (Nat.repr n) = some n := by
    rw [readInt?, hnumeral]
    dsimp only
    rw [digitsOf?_of_isDigit Nat.toDigits_ne_nil hascii, Option.bind_eq_bind, Option.bind_some]
    split
    · exact .inl rfl
    · rw [hvalue]
      exact .inr rfl
  rw [readNumber, hpoint, if_neg Bool.false_ne_true] at h
  rcases hread with hnone | hsome
  · rw [hnone] at h
    cases h
  · rw [hsome] at h
    exact (Except.ok.inj h).symm

theorem readTerm_showInt {n : Nat} {t : Value} (h : readTerm (Decimal.showInt n) = .ok t) :
    t = numberExpr (.int n) := by
  have hshow : showInt n = Nat.repr n := by simp [showInt]
  have hlist : (Nat.repr n).toList = Nat.toDigits 10 n := Nat.toList_repr
  obtain ⟨c, cs, hcons⟩ := exists_cons_of_ne_nil (Nat.toDigits_ne_nil (n := n) (b := 10))
  have hdigits : ∀ d ∈ c :: cs, isDigit d = true := fun d hd => by
    rw [isDigit, digitValue?_of_isDigit
      (Nat.isDigit_of_mem_toDigits (by decide) (by decide) (hcons ▸ hd))]
    rfl
  have hnumber : (plainNumber.full? (Nat.repr n)).isSome = true := by
    refine (fits_iff (p := plainNumber ++ ended) (by decide) _).mpr ?_
    rw [hlist, hcons]
    exact ⟨c, cs, rfl, hdigits c mem_cons_self, cs, [], (append_nil cs).symm,
      fun d hd => hdigits d (mem_cons_of_mem c hd), .inr ⟨rfl, trivial⟩⟩
  have hstrip : strip (Nat.repr n) = Nat.repr n := by
    refine strip_of_unblank ?_
    rw [hlist, hcons]
    exact fun d hd => isBlank_of_isDigit (hdigits d hd)
  rw [hshow, readTerm, hstrip, isQuoted_of_number hnumber, hnumber] at h
  obtain ⟨v, hv, h⟩ := of_bind_ok h
  rw [readNumber_repr hv] at h
  exact (Except.ok.inj h).symm

end Numerals

/-- What a line compares with is what the print of its operand is read as. So a name stays a name
    and a whole number stays that number, but of the texts in quotes only some stay texts. -/
theorem comparand_is_read_again {rest condition r name op value : String} {v t w : Value}
    (hline : partsOf? ("if" ++ " " ++ rest) = some (condition, r))
    (hsides : sidesOf? condition = some (name, op, value)) (hv : readOperand value = .ok v)
    (ht : readTerm v.display = .ok t) (hr : readTerm r = .ok w) :
    compileFlow true [.str ("if" ++ " " ++ rest)] =
        .ok [chooseStep (equalsExpr op (nameExpr name) t) w []] ∧
      (isName value = true → t = nameExpr value) ∧
      (∀ n : Nat, v = .int n → t = numberExpr (.int n)) ∧ (isQuoted value = true →
        (t = textExpr (inside value) ↔ staysText (inside value) = true)) := by
  refine ⟨?_, fun hname => ?_, fun n hn => ?_, fun hquoted => ?_⟩
  · have hif := compileFlow_eq_choice_iff true (.inl rfl) rest
      (equalsExpr op (nameExpr name) t) w
    rw [readCondition_line true (.inl rfl), String.ofList_toList, hline] at hif
    refine hif.mpr ?_
    rw [Option.elim_some, readParts, predicateOf, comparativeOf?_of_sidesOf? hsides hv]
    dsimp only
    rw [ht, hr]
    rfl
  · obtain ⟨hoperand, hterm⟩ := readOperand_of_isName hname
    obtain rfl := Except.ok.inj (hoperand.symm.trans hv)
    exact (Except.ok.inj (hterm.symm.trans ht)).symm
  · rw [hn] at ht
    exact readTerm_showInt ht
  · obtain rfl := Except.ok.inj ((readOperand_of_isQuoted hquoted).symm.trans hv)
    exact readTerm_eq_text_iff ht

/-- A word in quotes is compared as the variable of that name. -/
theorem comparand_is_read_again_ok :
    compileFlow true [.str ("if" ++ " " ++ "status is 'ok' then return x")] =
        .ok [chooseStep (equalsExpr "==" (nameExpr "status") (nameExpr "ok")) (nameExpr "x") []] ∧
      (nameExpr "ok" = textExpr (inside "'ok'") ↔ staysText (inside "'ok'") = true) := by
  have hv : readOperand "'ok'" = .ok (.str "ok") := Value.eq_ok_of_isCopy (by decide +kernel)
  have ht : readTerm (Value.str "ok").display = .ok (nameExpr "ok") :=
    Value.eq_ok_of_isCopy (by decide +kernel)
  have hr : readTerm "x" = .ok (nameExpr "x") := Value.eq_ok_of_isCopy (by decide +kernel)
  have hline : partsOf? ("if" ++ " " ++ "status is 'ok' then return x") =
      some ("status is 'ok'", "x") := by decide +kernel
  have hsides : sidesOf? "status is 'ok'" = some ("status", "==", "'ok'") := by decide +kernel
  obtain ⟨hflow, _, _, htext⟩ := comparand_is_read_again hline hsides hv ht hr
  exact ⟨hflow, htext (by decide)⟩

end Loom.Agent
