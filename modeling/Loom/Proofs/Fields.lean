import Loom.Value.Basic

/-!
# Reading What Was Written

Variables and receipts are both kept as named fields. Writing a field changes what
is read under its name and nothing else. Whether two documents are the same can be
tested, as far as they hold no decimals and no raw bytes.
-/

namespace Loom

open List

variable {ε α β : Type} {name other : String} {v : Value}

theorem of_bind_ok {x : Except ε α} {f : α → Except ε β} {b : β}
    (h : x >>= f = .ok b) : ∃ a, x = .ok a ∧ f a = .ok b := by
  cases x with
  | error e => cases h
  | ok a => exact ⟨a, rfl, h⟩

theorem exists_of_mapM_eq_ok {f : α → Except ε β} {xs : List α} {ys : List β}
    (h : xs.mapM f = .ok ys) : ∀ y ∈ ys, ∃ x ∈ xs, f x = .ok y := by
  induction xs generalizing ys with
  | nil =>
    cases h
    exact fun y hy => absurd hy not_mem_nil
  | cons x xs ih =>
    rw [mapM_cons] at h
    obtain ⟨y, hy, h⟩ := of_bind_ok h
    obtain ⟨rest, hrest, h⟩ := of_bind_ok h
    cases h
    refine forall_mem_cons.mpr ⟨⟨x, mem_cons_self, hy⟩, fun z hz => ?_⟩
    obtain ⟨w, hw, hwz⟩ := ih hrest z hz
    exact ⟨w, mem_cons_of_mem x hw, hwz⟩

namespace Fields

variable {α : Type u}

theorem get?_put_self (fs : Fields α) (name : String) (v : α) :
    (fs.put name v).get? name = some v := by
  induction fs with
  | nil => simp only [put, get?, beq_self_eq_true, if_true]
  | cons f fs ih =>
    by_cases hname : (f.1 == name) = true
    · rw [put, if_pos hname, get?, if_pos hname]
    · rw [put, if_neg hname, get?, if_neg hname, ih]

theorem get?_put_of_ne (fs : Fields α) (hne : name ≠ other) (v : α) :
    (fs.put name v).get? other = fs.get? other := by
  induction fs with
  | nil => simp only [put, get?, beq_iff_eq, if_neg hne]
  | cons f fs ih =>
    by_cases hname : (f.1 == name) = true
    · have hother : ¬(f.1 == other) := by
        rw [eq_of_beq hname, beq_iff_eq]
        exact hne
      rw [put, if_pos hname, get?, get?, if_neg hother, if_neg hother]
    · rw [put, if_neg hname, get?, get?, ih]

variable {fs : Fields α}

theorem mem_of_get? {a : α} (h : fs.get? name = some a) : (name, a) ∈ fs := by
  induction fs with
  | nil => cases h
  | cons f fs ih => grind [get?]

theorem put_of_get? {v : α} (h : fs.get? name = some v) : fs.put name v = fs := by
  induction fs with
  | nil => cases h
  | cons f fs ih =>
    by_cases hname : (f.1 == name) = true
    · rw [get?, if_pos hname, Option.some.injEq] at h
      rw [put, if_pos hname, ← h]
    · rw [get?, if_neg hname] at h
      rw [put, if_neg hname, ih h]

theorem put_of_get?_eq_none (h : fs.get? name = none) (v : α) :
    fs.put name v = fs ++ [(name, v)] := by
  induction fs with
  | nil => rfl
  | cons f fs ih =>
    by_cases hname : (f.1 == name) = true
    · rw [get?, if_pos hname] at h
      cases h
    · rw [get?, if_neg hname] at h
      rw [put, if_neg hname, ih h, cons_append]

theorem put_put (fs : Fields α) (name : String) (v w : α) :
    (fs.put name v).put name w = fs.put name w := by
  induction fs with
  | nil => simp only [put, beq_self_eq_true, if_true]
  | cons f fs ih =>
    by_cases hname : (f.1 == name) = true
    · simp only [put, if_pos hname]
    · simp only [put, if_neg hname, ih]

theorem erase_cons (f : String × α) (fs : Fields α) (name : String) :
    erase (f :: fs) name = if f.1 = name then erase fs name else f :: erase fs name := by
  by_cases hname : f.1 = name
  · simp only [erase, filter_cons, hname, bne_self_eq_false, Bool.false_eq_true, if_false, if_true]
  · simp only [erase, filter_cons, bne_iff_ne.mpr hname, hname, if_true, if_false]

theorem get?_erase_of_ne (fs : Fields α) (hne : name ≠ other) :
    (fs.erase name).get? other = fs.get? other := by
  induction fs with
  | nil => rfl
  | cons f fs ih =>
    rw [erase_cons]
    by_cases hname : f.1 = name
    · have hother : ¬(f.1 == other) := by
        rw [hname, beq_iff_eq]
        exact hne
      rw [if_pos hname, ih, get?, if_neg hother]
    · rw [if_neg hname, get?, get?, ih]

theorem get?_erase_self (fs : Fields α) (name : String) : (fs.erase name).get? name = none := by
  induction fs with
  | nil => rfl
  | cons f fs ih =>
    rw [erase_cons]
    by_cases hname : f.1 = name
    · rw [if_pos hname, ih]
    · rw [if_neg hname, get?, if_neg (fun h => hname (eq_of_beq h)), ih]

theorem erase_of_get?_eq_none (h : fs.get? name = none) : fs.erase name = fs := by
  induction fs with
  | nil => rfl
  | cons f fs ih =>
    by_cases hname : (f.1 == name) = true
    · rw [get?, if_pos hname] at h
      cases h
    · rw [get?, if_neg hname] at h
      rw [erase_cons, if_neg (fun hf => hname (beq_iff_eq.mpr hf)), ih h]

theorem get?_move_of_ne (fs : Fields α) {old new : String} (hold : old ≠ name) (hnew : new ≠ name) :
    (fs.move old new).get? name = fs.get? name := by
  unfold move
  split
  · rw [get?_put_of_ne _ hnew, get?_erase_of_ne _ hold]
  · rfl

variable {more : Fields α}

theorem get?_merge_of_not_mem (h : name ∉ more.keys) (fs : Fields α) :
    (fs.merge more).get? name = fs.get? name := by
  induction more generalizing fs with
  | nil => rfl
  | cons f more ih =>
    rw [keys, map_cons, mem_cons, not_or] at h
    change (merge (fs.put f.1 f.2) more).get? name = _
    rw [ih h.2, get?_put_of_ne _ (Ne.symm h.1)]

theorem get?_merge_of_mem (hnodup : more.keys.Nodup) {f : String × α}
    (hf : f ∈ more) (fs : Fields α) : (fs.merge more).get? f.1 = some f.2 := by
  induction more generalizing fs with
  | nil => cases hf
  | cons g more ih =>
    rw [keys, map_cons, nodup_cons] at hnodup
    change (merge (fs.put g.1 g.2) more).get? f.1 = _
    rcases mem_cons.mp hf with rfl | hf
    · rw [get?_merge_of_not_mem hnodup.1, get?_put_self]
    · exact ih hnodup.2 hf _

end Fields

theorem Value.field?_setField_of_ne (v : Value) (hne : name ≠ other) (w : Value) :
    (v.setField name w).field? other = v.field? other := by
  cases v with
  | obj fs => exact Fields.get?_put_of_ne fs hne w
  | _ => rfl

theorem Value.field_setField_of_ne (v : Value) (hne : name ≠ other) (w : Value) :
    (v.setField name w).field other = v.field other := by
  rw [field, field?_setField_of_ne _ hne, field]

theorem Value.exists_of_isObj (h : v.isObj) : ∃ fs : Fields Value, v = .obj fs := by
  cases v with
  | obj fs => exact ⟨fs, rfl⟩
  | _ => cases h

theorem Value.field_setField_self (hobj : v.isObj) (name : String) (w : Value) :
    (v.setField name w).field name = w := by
  obtain ⟨fs, rfl⟩ := exists_of_isObj hobj
  rw [setField, field, field?, Fields.get?_put_self, Option.getD_some]

theorem Value.isObj_setField (v : Value) (name : String) (w : Value) :
    (v.setField name w).isObj = v.isObj := by
  cases v <;> rfl

theorem Value.field_dropField_of_ne (v : Value) (hne : name ≠ other) :
    (v.dropField name).field other = v.field other := by
  cases v with
  | obj fs => rw [dropField, field, field, field?, field?, Fields.get?_erase_of_ne _ hne]
  | _ => rfl

/-! ### Documents that are the same -/

namespace Value

mutual

/-- Whether two documents of texts, integers and truth values are the same. -/
def isCopy : Value → Value → Bool
  | null, null => true
  | bool a, bool b => a == b
  | int a, int b => a == b
  | str a, str b => a == b
  | list xs, list ys => areCopies xs ys
  | obj fs, obj gs => areFieldCopies fs gs
  | _, _ => false

def areCopies : List Value → List Value → Bool
  | [], [] => true
  | x :: xs, y :: ys => isCopy x y && areCopies xs ys
  | _, _ => false

def areFieldCopies : List (String × Value) → List (String × Value) → Bool
  | [], [] => true
  | (k, v) :: fs, (l, w) :: gs => k == l && (isCopy v w && areFieldCopies fs gs)
  | _, _ => false

end

mutual

theorem eq_of_isCopy : ∀ v w : Value, isCopy v w → v = w
  | list xs, list ys, h => congrArg list (eq_of_areCopies xs ys h)
  | obj fs, obj gs, h => congrArg obj (eq_of_areFieldCopies fs gs h)
  | null, null, _ => rfl
  | bool _, bool _, h => congrArg bool (eq_of_beq h)
  | int _, int _, h => congrArg int (eq_of_beq h)
  | str _, str _, h => congrArg str (eq_of_beq h)

theorem eq_of_areCopies : ∀ xs ys : List Value, areCopies xs ys → xs = ys
  | [], [], _ => rfl
  | x :: xs, y :: ys, h => by
    rw [areCopies, Bool.and_eq_true] at h
    rw [eq_of_isCopy x y h.1, eq_of_areCopies xs ys h.2]

theorem eq_of_areFieldCopies : ∀ fs gs : List (String × Value), areFieldCopies fs gs →
    fs = gs
  | [], [], _ => rfl
  | (k, v) :: fs, (l, w) :: gs, h => by
    rw [areFieldCopies, Bool.and_eq_true, Bool.and_eq_true, beq_iff_eq] at h
    rw [h.1, eq_of_isCopy v w h.2.1, eq_of_areFieldCopies fs gs h.2.2]

end

theorem eq_ok_of_isCopy {r : Except ε Value} (h : r.toOption.any (isCopy · v)) :
    r = .ok v := by
  cases r with
  | error e => cases h
  | ok w => rw [eq_of_isCopy w v h]

theorem eq_ok_of_areCopies {r : Except ε (List Value)} {vs : List Value}
    (h : r.toOption.any (areCopies · vs)) : r = .ok vs := by
  cases r with
  | error e => cases h
  | ok ws => rw [eq_of_areCopies ws vs h]

end Value

end Loom
