import Loom.Proofs.Places
import Loom.Proofs.Quiet

/-!
# Laws of Runs

A law says what holds of a session after a computation, whichever way it ended. A computation
put together from such as keep a law keeps it too, so what each verb does is gone through once,
and what a law has to say of itself is only how it stands the few changes that steps make: to
bind a variable, to record, to show, to fetch an address or to be refused it. A law that does
not stand every binding names the variables that are free.

Steps inside a step and modules that are called are given to a step as parameters. So that two
ways of taking them can be compared, a law is kept by pairs of computations: under the law both
run alike. A law of one computation is the case where the two are the same.

No step looks at what was recorded, printed or fetched before it. So the second of the two may
run from a session with another past, and what it adds to that past is the same.
-/

namespace Loom

open Loom.Text Loom.Web Except Value Step

variable {α β : Type}
variable {c : Run α} {f g : α → Run β} {name : String} {r : Except Error α}
  {run : Value → Fields Value → Run Value} {m : Value}

namespace Session

/-- A capability document allows an address: it is no fixture, it is on the web,
    and its domain is listed. -/
def MayFetch (doc : Value) (url : String) : Prop := startsWith url fixtureMark = false ∧
    ∃ u, Url.parse url = .ok u ∧ u.isHttp = true ∧
      ∃ domains, allowedDomains doc = .ok domains ∧ u.domain ∈ domains

/-- What a session runs under, and no step changes. -/
def settings (s : Session) : Value × Bool × Fields Value × Network :=
  (s.capabilities, s.enforce, s.registry, s.network)

theorem run_bind (s : Session) (c : Run α) (f : α → Run β) : s.run (c >>= f) = match s.run c with
      | (.ok a, t) => t.run (f a) | (.error e, t) => (.error e, t) := by
  simp only [Session.run, ExceptT.run, bind, ExceptT.bind, ExceptT.mk, StateT.bind]
  rcases c s with ⟨r, t⟩
  cases r <;> rfl

theorem exists_of_run_bind {s t : Session} {b : β} (h : s.run (c >>= f) = (.ok b, t)) :
    ∃ a u, s.run c = (.ok a, u) ∧ u.run (f a) = (.ok b, t) := by
  rw [run_bind] at h
  rcases hc : s.run c with ⟨r, u⟩
  rw [hc] at h
  cases r with
  | ok a => exact ⟨a, u, rfl, h⟩
  | error e => exact absurd (congrArg Prod.fst h) (by simp)

theorem run_get (s : Session) : s.run (get : Run Session) = (.ok s, s) := rfl

theorem run_liftExcept (s : Session) (r : Except Error α) : s.run (Run.liftExcept r) = (r, s) := by
  cases r <;> rfl

theorem exists_of_run_lift {s t : Session} {b : β} {r : Except Error α}
    (h : s.run (Run.liftExcept r >>= f) = (.ok b, t)) :
    ∃ a, r = .ok a ∧ s.run (f a) = (.ok b, t) := by
  obtain ⟨a, u, hr, h⟩ := exists_of_run_bind h
  rw [run_liftExcept] at hr
  cases hr
  exact ⟨a, rfl, h⟩

end Session

variable {s : Step} {a : String}

namespace Step

/-- The arguments that name a variable to be bound. -/
def targetArgs : List String :=
  ["name", "store", "into", "intoBytes", "intoStatus", "intoType", "result"]

def targets (s : Step) : List String := targetArgs.filterMap fun a => (s.arg a).str?

theorem mem_targets {x : String} (ha : a ∈ targetArgs) (hx : s.arg a = .str x) : x ∈ s.targets :=
  List.mem_filterMap.mpr ⟨a, ha, by rw [hx]; rfl⟩

end Step

theorem Lineage.field_mark (l : Lineage) (entry : Fields Value)
    (h : name ∉ ["rawVerb", "mappedVerb", "overlayDomain", "overlayVersion", "capabilityCheck"]) :
    (Value.obj (l.mark entry)).field name = entry.getD name .null := by
  refine congrArg (Option.getD · null) (Fields.get?_merge_of_not_mem ?_ entry)
  exact h

namespace Run

open Session Overlay

/-! ### The check of an address -/

/-- A log entry that tells of the refusal of an address. -/
structure IsDenial (url : String) (entry : Value) : Prop where
  event : entry.field "event" = .str "capability"
  cap : entry.field "cap" = .str "network:fetch"
  address : entry.field "url" = .str url

inductive Checked (s : Session) (url : String) : Except Error Unit × Session → Prop
  | passes (h : s.enforce → MayFetch s.capabilities url) : Checked s url (.ok (), s)
  | fails {e : Error} (he : e.isOrdinary) : Checked s url (.error e, s)
  | refuses {entry : Value} (hs : s.enforce) (h : ¬MayFetch s.capabilities url)
      (hentry : IsDenial url entry) : Checked s url
        (.error (.run .fetchDisallowed), { s with receipt := s.receipt.addLog entry })

theorem checkFetch_cases (s : Session) (url : String) : Checked s url (s.run (checkFetch url)) := by
  unfold checkFetch
  rw [run_bind, run_get]
  dsimp only
  cases hs : s.enforce with
  | false => exact .passes fun h => absurd (hs.symm.trans h) Bool.false_ne_true
  | true =>
    simp only [Bool.not_true, Bool.false_eq_true, if_false]
    by_cases hfix : startsWith url fixtureMark = true
    · rw [if_pos hfix]
      refine .refuses hs (fun h => ?_) ⟨rfl, rfl, rfl⟩
      rw [h.1] at hfix
      exact Bool.false_ne_true hfix
    · rw [if_neg hfix, run_bind]
      cases hparse : Url.parse url with
      | error p =>
        simp only [parseUrl, hparse]
        exact .fails rfl
      | ok u =>
        have hpure : s.run (parseUrl url) = (.ok u, s) := by
          simp only [parseUrl, hparse]
          rfl
        rw [hpure]
        dsimp only
        -- the address that is parsed is the only one that the document may allow
        have hmay (h : MayFetch s.capabilities url) : u.isHttp = true ∧
            ∃ domains, allowedDomains s.capabilities = .ok domains ∧ u.domain ∈ domains := by
          obtain ⟨_, u', hu', h⟩ := h
          obtain rfl := ok.inj (hparse.symm.trans hu')
          exact h
        by_cases hhttp : u.isHttp = true
        · rw [if_pos hhttp, run_bind, run_liftExcept]
          have hquiet := quiet_allowedDomains s.capabilities
          cases hdom : allowedDomains s.capabilities with
          | error e =>
            rw [hdom] at hquiet
            exact .fails hquiet
          | ok domains =>
            dsimp only
            by_cases hmem : domains.contains u.domain = true
            · rw [if_pos hmem]
              exact .passes fun _ => ⟨Bool.not_eq_true _ ▸ hfix, u, hparse, hhttp, domains,
                hdom, List.contains_iff_mem.mp hmem⟩
            · rw [if_neg hmem]
              refine .refuses hs (fun h => hmem ?_) ⟨rfl, rfl, rfl⟩
              obtain ⟨_, domains', hdomains', h⟩ := hmay h
              obtain rfl := ok.inj (hdom.symm.trans hdomains')
              exact List.contains_iff_mem.mpr h
        · rw [if_neg hhttp]
          exact .refuses hs (fun h => hhttp (hmay h).1) ⟨rfl, rfl, rfl⟩

/-! ### Laws -/

/-- What another past makes of the entries, of the variables that the last run left, of the lines
    printed and of the addresses fetched. What is added is added in front of it or behind it. -/
structure Backdrop where
  steps : List Value → List Value
  left : Fields Value → Fields Value
  printed : List String → List String
  fetched : List String → List String
  steps_append (xs : List Value) (x : Value) : steps (xs ++ [x]) = steps xs ++ [x]
  printed_cons (line : String) (xs : List String) : printed (line :: xs) = line :: printed xs
  fetched_cons (url : String) (xs : List String) : fetched (url :: xs) = url :: fetched xs

namespace Backdrop

def same : Backdrop := ⟨id, id, id, id, fun _ _ => rfl, fun _ _ => rfl, fun _ _ => rfl⟩

def behind (b : Backdrop) (s : Session) : Session := { s with
    receipt := { s.receipt with steps := b.steps s.receipt.steps, env := b.left s.receipt.env }
    printed := b.printed s.printed
    fetched := b.fetched s.fetched }

/-- What a module that is called finds of it. -/
def abroad (b : Backdrop) : Backdrop :=
  { b with steps := id, left := id, steps_append := fun _ _ => rfl }

/-- A computation does not look at the past. -/
def Through (b : Backdrop) (c : Run α) : Prop :=
  ∀ s : Session, (b.behind s).run c = ((s.run c).1, b.behind (s.run c).2)

theorem behind_addStep (b : Backdrop) (s : Session) (l : Lineage) (entry : Fields Value) :
    { b.behind s with receipt := (b.behind s).receipt.addStep l entry } =
      b.behind { s with receipt := s.receipt.addStep l entry } :=
  congrArg (fun xs => { b.behind s with receipt := { (b.behind s).receipt with steps := xs } })
    (b.steps_append _ _).symm

end Backdrop

def failure? : Except Error α → Option Error
  | .ok _ => none
  | .error e => some e

/-- The entry of a `Show` in a receipt. -/
def showEntry (v : Value) : Fields Value :=
  [("event", .str "show"), ("value", v), ("verb", .str "Show")]

/-- What holds of a session after a computation that ended well, or with an error. It stands
    the changes that steps make, as long as they bind variables that are free. -/
structure Law where
  holds : Option Error → Session → Prop
  free : String → Prop := fun _ => True
  /-- The past of the second of two computations. -/
  past : Backdrop := .same
  faults {s : Session} {e : Error} (he : e.isOrdinary = true) (h : holds none s) : holds (some e) s
  binds {s : Session} {name : String} (hname : free name) (v : Value) (h : holds none s) :
    holds none { s with env := s.env.put name v }
  records {s : Session} {entry : Fields Value} (lineage : Lineage)
    (hentry : (entry.getD "event" .null).isText "show" = false) (h : holds none s) :
    holds none { s with receipt := s.receipt.addStep lineage entry }
  calls {s : Session} (entry : Value) (h : holds none s) :
    holds none { s with receipt := s.receipt.addCall entry }
  /-- A value is recorded before its text is printed and the value logged, and may have no
      text. -/
  shows {s : Session} (lineage : Lineage) (v : Value) (h : holds none s) :
    (∀ e : Error, e.isOrdinary = true →
      holds (some e) { s with receipt := s.receipt.addStep lineage (showEntry v) }) ∧
    ∀ line, v.shown = .ok line → holds none { s with
      receipt := (s.receipt.addStep lineage (showEntry v)).addLog v
      printed := line :: s.printed }
  fetches {s : Session} {url : String} (hmay : s.enforce = true → MayFetch s.capabilities url)
    (h : holds none s) : holds none { s with fetched := url :: s.fetched }
  refuses {s : Session} {url : String} {entry : Value} (hs : s.enforce = true)
    (hmay : ¬MayFetch s.capabilities url) (hentry : IsDenial url entry) (h : holds none s) :
    holds (some (.run .fetchDisallowed)) { s with receipt := s.receipt.addLog entry }

namespace Law

/-- In a session two computations run alike, whatever the past of the second, and the law holds
    afterwards. -/
def RelatesAt (L : Law) (s : Session) (c d : Run α) : Prop :=
  (L.past.behind s).run d = ((s.run c).1, L.past.behind (s.run c).2) ∧
    L.holds (failure? (s.run c).1) (s.run c).2

/-- Wherever the law holds two computations run alike, and it holds afterwards. -/
def Relates (L : Law) (c d : Run α) : Prop := ∀ s, L.holds none s → L.RelatesAt s c d

abbrev Governs (L : Law) (c : Run α) : Prop := L.Relates c c

variable {L : Law}

theorem governs_pure (a : α) : L.Governs (pure a : Run α) := fun _ hs => ⟨rfl, hs⟩

theorem governs_throw {e : Error} (he : e.isOrdinary) : L.Governs (throw e : Run α) :=
  fun _ hs => ⟨rfl, L.faults he hs⟩

theorem governs_change {f : Session → Session} (hf : ∀ s, L.holds none s → L.holds none (f s))
    (hpast : ∀ s, f (L.past.behind s) = L.past.behind (f s) := by intros; rfl) :
    L.Governs (change f) :=
  fun s hs => ⟨congrArg (Prod.mk (ok ())) (hpast s), hf s hs⟩

theorem governs_liftExcept (hr : Quiet r) : L.Governs (liftExcept r) := by
  intro s hs
  unfold RelatesAt
  rw [run_liftExcept, run_liftExcept]
  cases r with
  | ok a => exact ⟨rfl, hs⟩
  | error e => exact ⟨rfl, L.faults hr hs⟩

variable {d : Run α}

theorem relatesAt_bind {s : Session} (hc : L.RelatesAt s c d)
    (hf : ∀ a t, s.run c = (.ok a, t) → L.holds none t → L.RelatesAt t (f a) (g a)) :
    L.RelatesAt s (c >>= f) (d >>= g) := by
  obtain ⟨heq, hholds⟩ := hc
  unfold RelatesAt
  rw [run_bind, run_bind, heq]
  rcases hrun : s.run c with ⟨r, t⟩
  rw [hrun] at hholds
  cases r with
  | ok a => exact hf a t hrun hholds
  | error e => exact ⟨rfl, hholds⟩

theorem relates_bind (hc : L.Relates c d) (hf : ∀ a, L.Relates (f a) (g a)) :
    L.Relates (c >>= f) (d >>= g) :=
  fun s hs => relatesAt_bind (hc s hs) fun a t _ ht => hf a t ht

theorem relatesAt_lift {s : Session} (hr : Quiet r) (hs : L.holds none s)
    (hf : ∀ a, r = .ok a → L.RelatesAt s (f a) (g a)) :
    L.RelatesAt s (liftExcept r >>= f) (liftExcept r >>= g) := by
  refine relatesAt_bind (governs_liftExcept hr s hs) fun a t hrun _ => ?_
  rw [run_liftExcept] at hrun
  cases hrun
  exact hf a rfl

theorem relates_lift (hr : Quiet r) (hf : ∀ a, r = .ok a → L.Relates (f a) (g a)) :
    L.Relates (liftExcept r >>= f) (liftExcept r >>= g) :=
  fun s hs => relatesAt_lift hr hs fun a ha => hf a ha s hs

theorem relates_get {f g : Session → Run β}
    (hf : ∀ s, L.holds none s → L.RelatesAt s (f s) (g (L.past.behind s))) :
    L.Relates (get >>= f) (get >>= g) :=
  fun s hs => hf s hs

theorem governs_get {f : Session → Run β} (hf : ∀ s, L.holds none s → L.RelatesAt s (f s) (f s))
    (hpast : ∀ s, f (L.past.behind s) = f s := by intros; rfl) : L.Governs (get >>= f) :=
  relates_get fun s hs => (hpast s).symm ▸ hf s hs

/-! ### Variables, arguments and entries -/

theorem governs_bindName (h : L.free name) (v : Value) : L.Governs (bindName name v) :=
  governs_change fun _ => L.binds h v

theorem governs_record (lineage : Lineage) {entry : Fields Value}
    (hentry : (entry.getD "event" .null).isText "show" = false) :
    L.Governs (record lineage entry) :=
  governs_change (fun _ => L.records lineage hentry) fun s => L.past.behind_addStep s _ _

theorem governs_evaluate (v : Value) : L.Governs (evaluate v) := by
  refine governs_get fun s hs => ?_
  split
  · exact governs_liftExcept (Expr.quiet_eval _ _) s hs
  · exact governs_throw rfl s hs

theorem governs_argument (v : Value) : L.Governs (argument v) := by
  unfold argument
  split
  · exact governs_evaluate v
  · exact governs_pure v

theorem governs_bindArg {step : Step} (ha : a ∈ Step.targetArgs)
    (h : ∀ x ∈ step.targets, L.free x) (v : Value) : L.Governs (bindArg step a v) := by
  unfold bindArg
  split
  · rename_i x hx
    exact governs_bindName (h x (mem_targets ha hx)) v
  · exact governs_pure ()

/-! ### Fetching -/

def staying (b : Backdrop) (settings : Value × Bool × Fields Value × Network) : Law where
  holds _ s := s.settings = settings
  past := b
  faults _ h := h
  binds _ _ h := h
  records _ _ h := h
  calls _ h := h
  shows _ _ h := ⟨fun _ _ => h, fun _ _ => h⟩
  fetches _ h := h
  refuses _ _ _ h := h

theorem through_checkFetch (b : Backdrop) (url : String) : b.Through (checkFetch url) := by
  intro s
  have hparse : (staying b s.settings).Governs (parseUrl url) := by
    unfold parseUrl
    split
    · exact governs_pure _
    · exact governs_throw rfl
  have hcheck : (staying b s.settings).Governs (checkFetch url) := by
    refine governs_get fun s hs => ?_
    split
    · exact governs_pure () s hs
    · split
      · exact ⟨rfl, hs⟩
      · refine relates_bind hparse (fun u => ?_) s hs
        split
        · refine relates_bind (governs_liftExcept (quiet_allowedDomains _)) fun allowed => ?_
          split
          · exact governs_pure ()
          · exact fun _ hs => ⟨rfl, hs⟩
        · exact fun _ hs => ⟨rfl, hs⟩
  exact (hcheck s rfl).1

theorem governs_checkFetch (url : String) : L.Governs (checkFetch url) := by
  intro s hs
  refine ⟨through_checkFetch _ url s, ?_⟩
  have hcases := checkFetch_cases s url
  generalize s.run (checkFetch url) = r at hcases
  cases hcases with
  | passes => exact hs
  | fails he => exact L.faults he hs
  | refuses henf hmay hentry => exact L.refuses henf hmay hentry hs

theorem governs_addressOf (v : Value) : L.Governs (addressOf v) := by
  unfold addressOf
  split
  · refine relates_bind (governs_evaluate _) fun w => ?_
    split
    · exact governs_pure ""
    · exact governs_liftExcept (quiet_shown w)
  · refine governs_get fun s hs => ?_
    dsimp only
    split
    · exact governs_throw rfl s hs
    · exact governs_pure _ s hs
  · exact governs_pure ""

theorem relatesAt_fetch {s : Session} {url : String} (limit : Int)
    (hmay : s.enforce → MayFetch s.capabilities url) (hs : L.holds none s) :
    L.RelatesAt s (fetch url limit) (fetch url limit) := by
  have hfetched : L.RelatesAt s (change fun s => { s with fetched := url :: s.fetched })
      (change fun s => { s with fetched := url :: s.fetched }) :=
    ⟨congrArg (fun xs => (ok (), { L.past.behind s with fetched := xs }))
      (L.past.fetched_cons _ _).symm, L.fetches hmay hs⟩
  refine relatesAt_bind hfetched fun _ t _ ht => ?_
  exact (governs_get fun x hx => governs_liftExcept (Web.quiet_fetch _ _ _) x hx) t ht

theorem governs_fetchStep {step : Step} (h : ∀ x ∈ step.targets, L.free x) (lineage : Lineage)
    (node : Value) : L.Governs (fetchStep step lineage node) := by
  have htimeout (v : Value) : Quiet (checkTimeout v) := by
    unfold checkTimeout
    split
    · exact quiet_bind v.quiet_toFloat fun _ => rfl
    · rfl
  have hlimit (v : Value) : Quiet (limitOf v) := by
    unfold limitOf
    split
    · exact v.quiet_toInt
    · rfl
  refine relates_bind (governs_addressOf node) fun url s hs => ?_
  refine relatesAt_bind (governs_checkFetch url s hs) fun _ t hrun ht => ?_
  -- the check that was passed changed nothing, and neither does reading the limits
  have hchecked := checkFetch_cases s url
  rw [hrun] at hchecked
  cases hchecked with
  | passes hmay =>
    refine relatesAt_lift (htimeout _) ht fun _ _ => ?_
    refine relatesAt_lift (hlimit _) ht fun limit _ => ?_
    refine relatesAt_bind (relatesAt_fetch limit hmay ht) fun d t _ ht => ?_
    have hbind {a : String} (ha : a ∈ targetArgs) (v : Value) :
        L.Governs (bindArg step a v) := governs_bindArg ha h v
    exact relates_bind (hbind (by decide) _) (fun _ => relates_bind (hbind (by decide) _)
      fun _ => relates_bind (hbind (by decide) _) fun _ => relates_bind (hbind (by decide) _)
        fun _ => governs_record _ rfl) t ht

/-! ### Blocks, branches and loops -/

section

variable {take other : Value → Run Outcome}

theorem relates_steps {xs : List Value} (h : ∀ t ∈ xs, L.Relates (take t) (other t)) :
    L.Relates (steps take xs) (steps other xs) := by
  induction xs with
  | nil => exact governs_pure none
  | cons t xs ih =>
    obtain ⟨ht, hxs⟩ := List.forall_mem_cons.mp h
    refine relates_bind ht fun out => ?_
    cases out with
    | some v => exact governs_pure (some v)
    | none => exact ih hxs

theorem relates_block {b : Value}
    (h : ∀ xs, stepsIn b = .ok xs → ∀ t ∈ xs, L.Relates (take t) (other t)) :
    L.Relates (block take b) (block other b) := by
  refine relates_lift (b.quiet_lookup _) fun inner hinner => ?_
  obtain ⟨_, rfl⟩ := exists_of_lookup hinner
  exact relates_lift (quiet_items _) fun xs hxs => relates_steps (h xs hxs)

theorem relates_branches {lineage : Lineage} {bs : List Value} (index : Nat)
    (h : ∀ b ∈ bs, ∀ xs, stepsIn b = .ok xs → ∀ t ∈ xs, L.Relates (take t) (other t)) :
    L.Relates (branches take lineage index bs) (branches other lineage index bs) := by
  induction bs generalizing index with
  | nil => exact governs_pure none
  | cons b rest ih =>
    obtain ⟨hb, hrest⟩ := List.forall_mem_cons.mp h
    -- running reads the steps of a branch twice with the same default
    have hblock : L.Relates (branchBlock take b) (branchBlock other b) := by
      refine relates_block fun xs hxs => hb xs ?_
      change (((b.field "steps").orElse (.list [])).orElse (.list [])).items = .ok xs at hxs
      rwa [orElse_orElse] at hxs
    refine relates_bind (governs_liftExcept (b.quiet_hasMember _)) fun guarded => ?_
    cases guarded with
    | true =>
      refine relates_bind (governs_liftExcept (b.quiet_lookup _)) fun condition => ?_
      refine relates_bind (governs_evaluate condition) fun v => ?_
      split
      · exact relates_bind (governs_record _ rfl) fun _ => hblock
      · exact relates_bind (governs_record _ rfl) fun _ => ih (index + 1) hrest
    | false =>
      refine relates_bind (governs_liftExcept (b.quiet_lookup _)) fun otherwise => ?_
      split
      · exact relates_bind hblock fun _ =>
          relates_bind (governs_record _ rfl) fun _ => governs_pure _
      · exact ih (index + 1) hrest

theorem governs_bindIterator (hfree : ∀ x, L.free x) (iterator v : Value) :
    L.Governs (bindIterator iterator v) := by
  unfold bindIterator
  split
  · exact governs_pure ()
  · refine relates_bind (governs_liftExcept iterator.quiet_toName) fun name => ?_
    cases name with
    | some name => exact governs_bindName (hfree name) v
    | none => exact governs_bindName (hfree _) v

variable {body : Value}

theorem relates_countLoop (hfree : ∀ x, L.free x)
    (h : L.Relates (block take body) (block other body)) (iterator : Value) (stride : Int) (n : Nat) (i : Int) :
    L.Relates (countLoop take iterator body stride n i)
      (countLoop other iterator body stride n i) := by
  induction n generalizing i with
  | zero => exact governs_pure none
  | succ n ih =>
    refine relates_bind (governs_bindIterator hfree _ _) fun _ => relates_bind h fun out => ?_
    cases out with
    | some v => exact governs_pure (some v)
    | none => exact ih (i + stride)

theorem relates_listLoop (hfree : ∀ x, L.free x)
    (h : L.Relates (block take body) (block other body)) (iterator : Value) (vs : List Value) :
    L.Relates (listLoop take iterator body vs) (listLoop other iterator body vs) := by
  induction vs with
  | nil => exact governs_pure none
  | cons v rest ih =>
    refine relates_bind (governs_bindIterator hfree _ _) fun _ => relates_bind h fun out => ?_
    cases out with
    | some w => exact governs_pure (some w)
    | none => exact ih

theorem relates_repeatStep (hfree : ∀ x, L.free x)
    (h : ∀ xs, stepsIn (s.arg "block") = .ok xs → ∀ t ∈ xs, L.Relates (take t) (other t)) :
    L.Relates (repeatStep take s) (repeatStep other s) := by
  have hbody : L.Relates (block take ((s.arg "block").orElse (blockOf (.list []))))
      (block other ((s.arg "block").orElse (blockOf (.list [])))) := by
    refine relates_block fun xs hxs => ?_
    unfold orElse at hxs
    split at hxs
    · exact h xs hxs
    · -- without a block there is nothing to take
      cases hxs
      exact fun t ht => absurd ht List.not_mem_nil
  unfold repeatStep
  dsimp only
  split
  · refine relates_bind (governs_argument _) fun first => ?_
    refine relates_bind (governs_argument _) fun last => ?_
    refine relates_bind (governs_argument _) fun stride => ?_
    split
    · exact relates_countLoop hfree hbody _ _ _ _
    · exact governs_throw rfl
  · split
    · exact relates_listLoop hfree hbody _ _
    · exact governs_pure none

end

/-! ### The other verbs -/

variable {inputs : Fields Value} {x : Session}

section

variable {s : Step}

theorem governs_makeStep (hfree : ∀ x ∈ s.targets, L.free x) (lineage : Lineage) :
    L.Governs (makeStep s lineage) := by
  unfold makeStep
  split
  · rename_i name hname
    have hname : L.free name := hfree name (mem_targets (by decide) hname)
    split
    · exact governs_throw rfl
    · exact relates_bind (governs_argument _) fun v => relates_bind (governs_bindName hname v)
        fun _ => relates_bind (governs_record _ rfl) fun _ => governs_pure none
  · exact governs_throw rfl

theorem governs_showStep (s : Step) (lineage : Lineage) : L.Governs (showStep s lineage) := by
  refine relates_bind (governs_argument _) fun v x hx => ?_
  obtain ⟨hfault, hshown⟩ := L.shows lineage v hx
  have hquiet := v.quiet_shown
  have hadd := L.past.behind_addStep x lineage (showEntry v)
  cases hline : v.shown with
  | ok line =>
    refine ⟨?_, hshown line hline⟩
    exact congrArg₂ (fun (y : Session) xs => (ok none, { y with
      receipt := y.receipt.addLog v, printed := xs })) hadd (L.past.printed_cons _ _).symm
  | error e =>
    rw [hline] at hquiet
    exact ⟨congrArg (Prod.mk (error e)) hadd, hfault e hquiet⟩

theorem governs_returnStep (s : Step) (lineage : Lineage) : L.Governs (returnStep s lineage) :=
  relates_bind (governs_argument _) fun v => relates_bind (governs_record _ rfl) fun _ =>
    governs_pure (some v)

theorem governs_askStep (hfree : ∀ x ∈ s.targets, L.free x)
    (h : ∀ x entry, L.holds none x → L.holds none { x with receipt := x.receipt.addAsk entry }) :
    L.Governs (askStep s) := by
  refine relates_bind (governs_argument _) fun default => ?_
  have hask (answer : Value) : L.Governs (do
      change fun x => { x with receipt := x.receipt.addAsk (.obj
        [("prompt", (s.arg "text").orElse (.str "")), ("store", s.arg "store"),
          ("value", answer)]) }
      pure (none : Outcome)) :=
    relates_bind (governs_change fun x => h x _) fun _ => governs_pure none
  dsimp only
  split
  · rename_i name hname
    have hname : L.free name := hfree name (mem_targets (by decide) hname)
    split
    · exact hask _
    · refine governs_get fun x hx => ?_
      split
      · exact hask _ x hx
      · exact relates_bind (governs_bindName hname default) (fun _ => hask default) x hx
  · exact hask _

theorem governs_titleStep (hfree : ∀ x ∈ s.targets, L.free x) (lineage : Lineage) :
    L.Governs (titleStep s lineage) := by
  have hend (text : String) : L.Governs (do
      bindArg s "into" (.str (titleOf text))
      record lineage [("event", .str "parse"), ("op", .str titleOp), ("verb", .str "Call")]
      pure (none : Outcome)) :=
    relates_bind (governs_bindArg (by decide) hfree _) fun _ =>
      relates_bind (governs_record _ rfl) fun _ => governs_pure none
  have hrest (source : Value) : L.Governs (do
      let text ← if source.isNull then pure "" else liftExcept source.shown
      bindArg s "into" (.str (titleOf text))
      record lineage [("event", .str "parse"), ("op", .str titleOp), ("verb", .str "Call")]
      pure (none : Outcome)) := by
    split
    · exact hend _
    · exact relates_bind (governs_liftExcept (quiet_shown source)) hend
  unfold titleStep
  split
  · exact relates_bind (governs_evaluate _) hrest
  · split
    · exact governs_get fun x hx => hrest _ x hx
    · exact hrest .null

theorem governs_callInputs (inputs : List (String × Value)) : L.Governs (callInputs inputs) := by
  induction inputs with
  | nil => exact governs_pure []
  | cons i rest ih =>
    exact relates_bind (governs_argument _) fun _ => relates_bind ih fun _ => governs_pure _

def Calls (L : Law) (run : Value → Fields Value → Run Value) : Prop :=
  ∀ (s : Session) (name : String) (m : Value) (inputs : Fields Value), L.holds none s →
    s.module? name = some m →
    L.holds (failure? ((calleeSession s).run (run m inputs)).1) { s with
      printed := ((calleeSession s).run (run m inputs)).2.printed
      fetched := ((calleeSession s).run (run m inputs)).2.fetched }

theorem run_inCallee {s inner : Session} {r : Except Error Value}
    (h : (calleeSession s).run (run m inputs) = (r, inner)) :
    s.run (inCallee run m inputs) = (r.map (·, inner.receipt.ask),
      { s with printed := inner.printed, fetched := inner.fetched }) := by
  have hinner : (run m inputs).run (calleeSession s) = (r, inner) := h
  unfold inCallee
  rw [run_bind, run_get]
  simp only [hinner]
  rw [run_bind]
  change Session.run _ (liftExcept r >>= _) = _
  rw [run_bind, run_liftExcept]
  cases r <;> rfl

theorem relatesAt_inCallee (hcall : L.Calls run)
    (hpast : ∀ m inputs, L.past.abroad.Through (run m inputs)) (inputs : Fields Value)
    (hx : L.holds none x) (hm : x.module? name = some m) :
    L.RelatesAt x (inCallee run m inputs) (inCallee run m inputs) := by
  have hholds := hcall x name m inputs hx hm
  have hother := hpast m inputs (calleeSession x)
  rcases hinner : (calleeSession x).run (run m inputs) with ⟨r, inner⟩
  rw [hinner] at hholds hother
  unfold RelatesAt
  rw [run_inCallee hinner, run_inCallee (s := L.past.behind x) hother]
  cases r <;> exact ⟨rfl, hholds⟩

/-- The module that a call means, null if there is none. -/
def calleeOf (s : Session) (target : Value) : Value := match target with
  | .str name => (s.module? name).getD .null
  | _ => .null

theorem isNull_calleeOf_or (s : Session) (target : Value) : (calleeOf s target).isNull ∨
      ∃ name, target = .str name ∧ s.module? name = some (calleeOf s target) := by
  unfold calleeOf
  split
  · rename_i name
    cases hm : s.module? name with
    | none => exact .inl rfl
    | some m => exact .inr ⟨name, rfl, hm⟩
  · exact .inl rfl

theorem governs_callStep (hcall : L.Calls run) (hfree : ∀ x ∈ s.targets, L.free x)
    (lineage : Lineage) (hpast : ∀ m inputs, L.past.abroad.Through (run m inputs)) :
    L.Governs (callStep run s lineage) := by
  refine relates_bind (governs_change fun _ => L.calls _) fun _ => ?_
  dsimp only
  split
  · refine relates_bind (governs_callInputs _) fun inputs => governs_get fun x hx => ?_
    change L.RelatesAt x (if (calleeOf x (s.arg "module")).isNull then _ else _)
      (if (calleeOf x (s.arg "module")).isNull then _ else _)
    by_cases hnull : (calleeOf x (s.arg "module")).isNull = true
    · rw [if_pos hnull]
      exact relates_bind (governs_record lineage rfl) (fun _ => governs_pure none) x hx
    · obtain ⟨name, _, hm⟩ := (isNull_calleeOf_or x (s.arg "module")).resolve_left hnull
      rw [if_neg hnull]
      refine relatesAt_bind (relatesAt_inCallee hcall hpast inputs hx hm) fun out t _ ht => ?_
      exact relates_bind (governs_record lineage rfl) (fun _ =>
        relates_bind (governs_bindArg (by decide) hfree _) fun _ => governs_pure none) t ht
  · exact governs_throw rfl

theorem governs_anyCall (hcall : L.Calls run) (hfree : ∀ x ∈ s.targets, L.free x)
    (lineage : Lineage)
    (hpast : ∀ m inputs, L.past.abroad.Through (run m inputs) := by intros; exact fun _ => rfl) :
    L.Governs (anyCall run s lineage) := by
  unfold anyCall
  split
  · exact governs_titleStep hfree lineage
  · split
    · exact governs_callStep hcall hfree lineage hpast
    · dsimp only
      split
      · exact relates_bind (governs_fetchStep hfree _ _) fun _ => governs_pure none
      · exact governs_pure none

end

/-- A call that names a module and nothing else to call. -/
structure IsModuleCall (s : Step) : Prop where
  verb : s.verb = "Call"
  names : s.args.has "module"
  only : ∀ other ∈ ["op", "url", "http"], s.args.get? other = none

variable {v : Value}

theorem IsModuleCall.run_step (h : IsModuleCall s)
    (hv : Step.ofValue v = .ok s) (take : Value → Run Outcome)
    (run : Value → Fields Value → Run Value) (x : Session) :
    x.run (step take run v) = x.run (callStep run s (Lineage.ofStep v)) := by
  have hno (other : String) (hother : other ∈ ["op", "url", "http"]) :
      s.args.has other = false := by
    rw [Fields.has, h.only other hother, Option.isSome_none]
  have hop : (s.arg "op").isText titleOp = false := by
    rw [arg, Fields.getD, h.only "op" (by decide)]
    rfl
  rw [step, run_bind, run_liftExcept, hv]
  dsimp only
  rw [h.verb]
  change x.run (anyCall run s (Lineage.ofStep v)) = _
  rw [anyCall, hop, h.names, hno "op" (by decide), hno "url" (by decide), hno "http" (by decide)]
  rfl

/-! ### Steps and runs -/

/-- A step keeps the law if the steps inside it and the modules it calls do. What an `Ask` or a
    verb that does not run may mean to the law is left to it. -/
theorem relatesAt_step {take other : Value → Run Outcome}
    (hfree : ∀ x, L.free x) (htake : ∀ xs, Takes v xs → ∀ t ∈ xs, L.Relates (take t) (other t))
    (hcall : L.Calls run)
    (hask : ∀ s, Step.ofValue v = .ok s → s.verb = "Ask" → L.RelatesAt x (askStep s) (askStep s))
    (hverb : ∀ s, Step.ofValue v = .ok s → s.verb ∉ canonicalVerbs →
      L.holds (some (.run (.unsupportedVerb s.verb))) x) (hx : L.holds none x)
    (hpast : ∀ m inputs, L.past.abroad.Through (run m inputs) := by intros; exact fun _ => rfl) :
    L.RelatesAt x (step take run v) (step other run v) := by
  refine relatesAt_lift (quiet_ofValue v) hx fun s hs => ?_
  split
  · exact governs_makeStep (fun x _ => hfree x) _ x hx
  · exact governs_showStep s _ x hx
  · exact governs_returnStep s _ x hx
  · rename_i hverb
    exact hask s hs hverb
  · rename_i hverb
    refine relates_lift (quiet_items _) (fun bs hbs => ?_) x hx
    exact relates_branches 0 fun b hb xs hxs => htake xs (.branch hs hverb hbs hb hxs)
  · rename_i hverb
    exact relates_repeatStep hfree (fun xs hxs => htake xs (.block hs hverb hxs)) x hx
  · exact governs_anyCall hcall (fun x _ => hfree x) _ hpast x hx
  · -- none of the cases above: the verb is not one that runs
    refine ⟨rfl, hverb s hs ?_⟩
    simp_all [canonicalVerbs]

def called (depth : Nat) (m : Value) (inputs : Fields Value) : Run Value := do
  moduleWith (takeStep depth) (← liftExcept (unwrap m)) inputs

theorem takeStep_succ (depth : Nat) (v : Value) :
    takeStep (depth + 1) v = step (takeStep depth) (called depth) v :=
  rfl

theorem quiet_flowOf (m : Value) : Quiet (flowOf m) := by
  unfold flowOf
  dsimp only
  split
  · rfl
  · exact quiet_bind (quiet_lookup _ _) fun _ => rfl

theorem relatesAt_moduleWith {take other : Value → Run Outcome} {s : Session} (hbegin : L.holds none { s with
      env := inputs, ready := true, receipt := s.receipt.restart })
    (htake : ∀ flow xs, flowOf m = .ok flow → stepsIn (Step.blockOf flow) = .ok xs →
      ∀ t ∈ xs, L.Relates (take t) (other t)) (hend : ∀ t, L.holds none t →
      L.holds none { t with receipt := { t.receipt with env := t.env } })
    (hsteps : L.past.steps [] = [] := by rfl)
    (hleft : ∀ env, L.past.left env = env := by intros; rfl) : L.RelatesAt s (moduleWith take m inputs) (moduleWith other m inputs) := by
  have hstart : L.RelatesAt s (begin inputs) (begin inputs) :=
    ⟨congrArg (fun xs => (ok (), { L.past.behind s with
      env := inputs, ready := true
      receipt := { (L.past.behind s).receipt.restart with steps := xs } })) hsteps.symm, hbegin⟩
  refine relatesAt_bind hstart fun _ t _ ht => relatesAt_lift (quiet_flowOf m) ht fun flow h => ?_
  refine relates_bind (relates_block fun xs hxs => htake flow xs h hxs) (fun out => ?_) t ht
  refine relates_bind (governs_change hend fun u => ?_) fun _ => governs_pure _
  exact congrArg (fun env => { L.past.behind u with
    receipt := { (L.past.behind u).receipt with env := env } }) (hleft u.env).symm

theorem quiet_unwrap (m : Value) : Quiet (unwrap m) := quiet_bind (m.quiet_lookup _) fun _ => rfl

theorem governs_staying (b : Backdrop) (settings : Value × Bool × Fields Value × Network)
    (depth : Nat) (v : Value) : (staying b settings).Governs (takeStep depth v) := by
  induction depth generalizing b settings v with
  | zero => exact governs_throw rfl
  | succ depth ih =>
    have hcalled (m : Value) (inputs : Fields Value) : b.abroad.Through (called depth m inputs) :=
      fun s => (relates_lift (L := staying b.abroad s.settings) (quiet_unwrap m) (fun _ _ _ hs =>
        relatesAt_moduleWith hs (fun _ _ _ _ v _ => ih b.abroad _ v) fun _ h => h) s rfl).1
    intro s hs
    exact relatesAt_step (fun _ => trivial) (fun _ _ t _ => ih b _ t) (fun _ _ _ _ h _ => h)
      (fun _ _ _ => governs_askStep (fun _ _ => trivial) (fun _ _ h => h) s hs)
      (fun _ _ _ => hs) hs hcalled

end Law

end Run

end Loom

/-!
## What a Run Comes To

Whether a run comes to a step in a certain session can be told from outside. If something else
is put in the place of such steps, a run that does not come to them is the same as before,
whatever was put there, and a run that does come to them is not, for it can be made to fail in a
way of its own. So a run is said to avoid such steps if it is the same whatever is put in their
place.

The steps are those of the run itself, at any depth of blocks. A module that is called is run as
it is.
-/

namespace Loom.Run

open Session Overlay Law

section

variable (p : Session → Value → Prop) [∀ s v, Decidable (p s v)]

/-- Taking a step, with something else in the place of those of which `p` holds in the session
    that comes to them. -/
def divert (other : Value → Run Outcome) : Nat → Value → Run Outcome
  | 0, _ => throw .tooDeep
  | depth + 1, v => do
    if p (← get) v then other v else step (divert other depth) (called depth) v

/-- Whatever is put in the place of such steps, a run of a module is the same. -/
def Avoids (depth : Nat) (m : Value) (inputs : Fields Value) (s : Session) : Prop :=
  ∀ other, s.run (moduleWith (divert p other depth) m inputs) =
    s.run (moduleWith (takeStep depth) m inputs)

end

theorem takeStep_eq_divert (other : Value → Run Outcome) (depth : Nat) :
    takeStep depth = divert (fun _ _ => False) other depth := by
  induction depth with
  | zero => rfl
  | succ depth ih =>
    funext v
    rw [takeStep_succ, ih]
    rfl

variable {p q : Session → Value → Prop} [∀ s v, Decidable (p s v)] [∀ s v, Decidable (q s v)]

/-- Where two diversions agree, and what they put in the place of steps keeps the law, the law
    makes them alike. It may look at an `Ask` only where that is not diverted. -/
theorem relates_divert {L : Law} {other : Value → Run Outcome} {r : Value → Prop}
    (hfree : ∀ x, L.free x) (hclosed : ∀ v xs, r v → Takes v xs → ∀ t ∈ xs, r t)
    (hpq : ∀ s v, r v → L.holds none s → (p s v ↔ q (L.past.behind s) v))
    (hother : ∀ s v, r v → L.holds none s → p s v → L.RelatesAt s (other v) (other v))
    (hask : ∀ s v st, L.holds none s → ¬p s v → Step.ofValue v = .ok st →
      st.verb = "Ask" → L.RelatesAt s (askStep st) (askStep st))
    (hcalls : ∀ depth, L.Calls (called depth))
    (hverb : ∀ s verb, L.holds none s → L.holds (some (.run (.unsupportedVerb verb))) s)
    (depth : Nat) {v : Value} (hv : r v)
    (hpast : ∀ depth m inputs, L.past.abroad.Through (called depth m inputs) := by
      intros; exact fun _ => rfl) : L.Relates (divert p other depth v) (divert q other depth v) := by
  induction depth generalizing v with
  | zero => exact governs_throw rfl
  | succ depth ih =>
    refine relates_get fun s hs => ?_
    by_cases hp : p s v
    · rw [if_pos hp, if_pos ((hpq s v hv hs).mp hp)]
      exact hother s v hv hs hp
    · rw [if_neg hp, if_neg (mt (hpq s v hv hs).mpr hp)]
      exact relatesAt_step hfree (fun xs hxs t ht => ih (hclosed v xs hv hxs t ht)) (hcalls depth)
        (fun st => hask s v st hs hp) (fun _ _ _ => hverb s _ hs) hs (hpast depth)

end Loom.Run
