import Loom.Proofs.Law

/-!
# Fetch Confinement

While capabilities are enforced, a run hands no address to the network that the
capability document does not allow, and none at all to the fixtures.

The check stands in one branch of one verb, but a run reaches that branch through
blocks inside blocks, rounds of loops and sessions started for modules that are
called. What has to survive on all of these ways is the same: the flag and the
document stay as they are, and the record of fetched addresses only grows by
allowed ones. `Confined` says this of two sessions and `Confines` of a
computation, whichever way it ends. Since a session it is a law of runs, and the
depth of a run needs one induction.

A session for a module that is called takes the document over unless it counts as
false, when it gets an empty one. An empty document allows nothing, so what such
a session may fetch its caller may fetch too.
-/

namespace Loom

open Loom.Text Loom.Web

namespace Session

structure Confined (s t : Session) : Prop where
  capabilities : t.capabilities = s.capabilities
  enforce : t.enforce = s.enforce
  fetched : ∃ new, t.fetched = new ++ s.fetched ∧ ∀ url ∈ new, MayFetch s.capabilities url

theorem Confined.refl (s : Session) : Confined s s :=
  ⟨rfl, rfl, [], rfl, fun _ h => absurd h List.not_mem_nil⟩

theorem Confined.trans {s t u : Session} (h₁ : Confined s t) (h₂ : Confined t u) :
    Confined s u := by
  rcases h₁.fetched with ⟨new₁, hnew₁, hall₁⟩
  rcases h₂.fetched with ⟨new₂, hnew₂, hall₂⟩
  refine ⟨h₂.capabilities.trans h₁.capabilities, h₂.enforce.trans h₁.enforce,
    new₂ ++ new₁, ?_, fun url hurl => ?_⟩
  · rw [hnew₂, hnew₁, List.append_assoc]
  · rcases List.mem_append.mp hurl with h | h
    · rw [← h₁.capabilities]
      exact hall₂ url h
    · exact hall₁ url h

theorem not_mayFetch_empty (url : String) : ¬ MayFetch (.obj []) url := by
  rintro ⟨_, u, _, _, domains, hdomains, hmem⟩
  have hnone : allowedDomains (.obj []) = .ok [] := rfl
  rw [hnone, Except.ok.injEq] at hdomains
  rw [← hdomains] at hmem
  exact List.not_mem_nil hmem

theorem mayFetch_of_orElse {doc : Value} {url : String}
    (h : MayFetch (doc.orElse (.obj [])) url) : MayFetch doc url := by
  unfold Value.orElse at h
  by_cases ht : doc.truthy = true
  · rwa [if_pos ht] at h
  · rw [if_neg ht] at h
    exact absurd h (not_mayFetch_empty url)

end Session

namespace Run

open Session

variable {α β : Type}

/-- A computation that only fetches what the document in force allows, whether it
    ends well or fails. -/
def Confines (c : Run α) : Prop :=
  ∀ s : Session, s.enforce = true → Confined s (s.run c).2

theorem confines_liftExcept (r : Except Error α) : Confines (liftExcept r) := by
  intro s _
  rw [run_liftExcept]
  exact Confined.refl s

theorem confines_bind {c : Run α} {f : α → Run β} (hc : Confines c)
    (hf : ∀ a, Confines (f a)) : Confines (c >>= f) := by
  intro s hs
  have hfirst := hc s hs
  rw [run_bind]
  rcases hrun : s.run c with ⟨r, t⟩
  rw [hrun] at hfirst
  cases r with
  | ok a => exact hfirst.trans (hf a t (hfirst.enforce.trans hs))
  | error e => exact hfirst

theorem confines_change {f : Session → Session}
    (hf : ∀ s, (f s).capabilities = s.capabilities ∧ (f s).enforce = s.enforce ∧
      (f s).fetched = s.fetched) : Confines (change f) := by
  intro s _
  rcases hf s with ⟨hcap, henf, hfet⟩
  exact ⟨hcap, henf, [], hfet, fun _ h => absurd h List.not_mem_nil⟩

def confinedSince (s₀ : Session) : Law where
  holds _ t := s₀.enforce = true ∧ t.capabilities = s₀.capabilities ∧ t.enforce = s₀.enforce ∧
    ∃ new, t.fetched = new ++ s₀.fetched ∧ ∀ url ∈ new, MayFetch s₀.capabilities url
  faults _ h := h
  binds _ _ h := h
  records _ _ h := h
  calls _ h := h
  shows _ _ h := ⟨fun _ _ => h, fun _ _ => h⟩
  fetches := by
    rintro s url hmay ⟨hs₀, hcap, henf, new, hnew, hall⟩
    have hurl := hmay (henf.trans hs₀)
    rw [hcap] at hurl
    exact ⟨hs₀, hcap, henf, url :: new, congrArg (url :: ·) hnew,
      List.forall_mem_cons.mpr ⟨hurl, hall⟩⟩
  refuses _ _ _ h := h

theorem holds_confinedSince {s₀ t : Session} {e : Option Error} :
    (confinedSince s₀).holds e t ↔ s₀.enforce ∧ Confined s₀ t :=
  ⟨fun ⟨hs₀, hcap, henf, hnew⟩ => ⟨hs₀, hcap, henf, hnew⟩,
    fun ⟨hs₀, h⟩ => ⟨hs₀, h.capabilities, h.enforce, h.fetched⟩⟩

theorem governs_of_confines {c : Run α} (hc : Confines c) (s₀ : Session) :
    (confinedSince s₀).Governs c := by
  intro s hs
  obtain ⟨hs₀, hconf⟩ := holds_confinedSince.mp hs
  exact ⟨rfl, holds_confinedSince.mpr ⟨hs₀, hconf.trans (hc s (hconf.enforce.trans hs₀))⟩⟩

/-- A module that is called runs in a session of its own. What that session keeps
    is handed back: the addresses it fetched were allowed by the document it took
    over, so the caller's document allows them. -/
theorem calls_confinedSince {run : Value → Fields Value → Run Value}
    (hrun : ∀ m inputs, Confines (run m inputs)) (s₀ : Session) : (confinedSince s₀).Calls run := by
  intro s name m inputs hs _
  obtain ⟨hs₀, hconf⟩ := holds_confinedSince.mp hs
  obtain ⟨new, hnew, hall⟩ := (hrun m inputs (calleeSession s) (hconf.enforce.trans hs₀)).fetched
  have hinner : Confined s { s with
      printed := ((calleeSession s).run (run m inputs)).2.printed
      fetched := ((calleeSession s).run (run m inputs)).2.fetched } :=
    ⟨rfl, rfl, new, hnew, fun url hurl => mayFetch_of_orElse (hall url hurl)⟩
  exact holds_confinedSince.mpr ⟨hs₀, hconf.trans hinner⟩

theorem confines_moduleWith {take : Value → Run Outcome} (htake : ∀ v, Confines (take v))
    (m : Value) (inputs : Fields Value) : Confines (moduleWith take m inputs) := by
  intro s hs
  have hstart : (confinedSince s).holds none s := holds_confinedSince.mpr ⟨hs, .refl s⟩
  have hend : (confinedSince s).RelatesAt s (moduleWith take m inputs) (moduleWith take m inputs) :=
    Law.relatesAt_moduleWith hstart (fun _ _ _ _ v _ => governs_of_confines (htake v) s) fun _ h => h
  exact (holds_confinedSince.mp hend.2).2

theorem confines_takeStep : ∀ (depth : Nat) (v : Value), Confines (takeStep depth v) := by
  intro depth
  induction depth with
  | zero => exact fun _ s _ => Confined.refl s
  | succ depth ih =>
    intro v s hs
    have hstart : (confinedSince s).holds none s := holds_confinedSince.mpr ⟨hs, .refl s⟩
    have hrun : ∀ m inputs, Confines (do
        moduleWith (takeStep depth) (← liftExcept (unwrap m)) inputs) := fun m inputs =>
      confines_bind (confines_liftExcept _) fun _ => confines_moduleWith ih _ inputs
    have hend := Law.relatesAt_step (v := v) (fun _ => trivial)
      (fun _ _ t _ => governs_of_confines (ih t) s) (calls_confinedSince hrun s)
      (fun _ _ _ => Law.governs_askStep (fun _ _ => trivial) (fun _ _ h => h) s hstart)
      (fun _ _ _ => hstart) hstart
    exact (holds_confinedSince.mp hend.2).2

/-- Every address that a run hands over while capabilities are enforced is allowed
    by the capability document in force: the run's own, or else the session's. -/
theorem runModule_fetches_allowed (s : Session) (m inputs : Value) (enforce : Option Bool)
    (capabilities : Option Value) (henf : enforce.getD s.enforce = true) :
    ∃ new, (s.run (runModule m inputs enforce capabilities)).2.fetched = new ++ s.fetched ∧
      ∀ url ∈ new, MayFetch (capabilities.getD s.capabilities) url := by
  unfold runModule
  rw [run_bind, run_liftExcept]
  cases unwrap m with
  | error e => exact ⟨[], rfl, fun _ h => absurd h List.not_mem_nil⟩
  | ok m =>
    -- from here on the settings are those of the run
    have hconf : Confines (do
        let inputs ← liftExcept inputs.toFieldsOrNone
        change fun s => { s with env := inputs }
        moduleWith (takeStep depthLimit) m inputs) :=
      confines_bind (confines_liftExcept _) fun _ =>
        confines_bind (confines_change fun _ => ⟨rfl, rfl, rfl⟩) fun _ =>
          confines_moduleWith (confines_takeStep depthLimit) m _
    exact (hconf { s with
      capabilities := capabilities.getD s.capabilities
      enforce := enforce.getD s.enforce } henf).fetched

/-- A session that enforces a document with one domain. Its registry holds a module
    that fetches from that domain and then asks for a fixture. -/
def guardedSession : Session :=
  let fetches (url : String) : Value :=
    .obj [("verb", .str "Call"), ("args", .obj [("url", .str url)])]
  Session.start (.obj [("network:fetch", .obj [("domains", .list [.str "a.example"])])]) true
    [("Inner", .obj [("flow", .list [fetches "https://a.example/x",
      fetches "fixture://fixtures/arxiv.atom.xml"])])]
    [("https://a.example/x", .document 200 [] [])]

/-- A module that calls another one in every round of a loop. -/
def callingLoop : Value :=
  .obj [("flow", .list [.obj [("verb", .str "Repeat"), ("args", .obj
    [("iterator", .str "i"), ("iterable", .list [.int 1, .int 2]),
      ("block", Step.blockOf (.list [.obj [("verb", .str "Call"),
        ("args", .obj [("module", .str "Inner")])]]))])]])]

/-- The call inside the loop fetches once, and its second address stops the run. -/
theorem runModule_fetches_allowed_in_loop :
    (none : Option Bool).getD guardedSession.enforce = true ∧
      (guardedSession.run (runModule callingLoop .null none none)).2.fetched =
        ["https://a.example/x"] ∧
      ∃ new, (guardedSession.run (runModule callingLoop .null none none)).2.fetched =
          new ++ guardedSession.fetched ∧
        ∀ url ∈ new, MayFetch ((none : Option Value).getD guardedSession.capabilities) url :=
  ⟨rfl, by decide +kernel, runModule_fetches_allowed _ _ _ _ _ rfl⟩

end Run

end Loom
