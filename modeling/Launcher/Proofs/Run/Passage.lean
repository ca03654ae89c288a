import Launcher.Proofs.Alike
import Launcher.Proofs.Run.Ending

/-!
# What a run passes through

A relation between worlds is a **passage** if it is reflexive and transitive and does not mind what
the launcher does by itself: its events, and what it does to the queues, the search path and the
rest of the process. If the hosted programs of a run keep to a passage, then so does the run
(`passes_main`).
-/

namespace Launcher

variable {σ : Type}

/-- A relation between an earlier and a later world that only hosted programs can break. -/
structure Passage (R : World σ → World σ → Prop) : Prop where
  refl : ∀ w, R w w
  trans : ∀ {u v w}, R u v → R v w → R u w
  /-- The launcher does something that leaves the hosted programs and the trace alone. -/
  aside : ∀ {w v : World σ}, v.host = w.host → v.log = w.log → R w v
  /-- The launcher makes an event. -/
  record : ∀ (w : World σ) {e : Event}, (∀ hosted, e ≠ .hosted hosted) → R w (w.record e)

variable {R : World σ → World σ → Prop}

theorem Passage.course (hR : Passage R) (exit : Exit σ) : Course exit R where
  refl := hR.refl
  trans := hR.trans
  record w e he := hR.record w fun hosted h ↦ by
    subst h
    cases he
  emptied w := hR.trans
    (hR.aside (w := w) (v := { w with hooks := w.hooks.clear exit.queue }) rfl rfl)
    (hR.record _ nofun)
  setPath _ _ := hR.aside rfl rfl
  setArguments _ _ := hR.aside rfl rfl

/-- **A run keeps to a passage**, whatever its command line, if its hosted programs do. -/
theorem Run.passes_main {c : Collaborators σ} {exit : Exit σ} (hR : Passage R)
    (hpublish : ∀ rest, (c.publish rest).KeepsTo R)
    (hplan : ∀ plan, (Dispatch.plan c plan).KeepsTo R)
    (hcall : ∀ hook status, (exit.call hook status).KeepsTo R) (arguments : List String) :
    (main c exit arguments).Passes R := by
  intro w result w' hmain
  obtain ⟨v, hbody, hend⟩ := exists_body_of_main hmain
  -- the binding changes before the body and behind it, which is no matter for a passage
  have hv : R w v := hR.trans (hR.aside (v := w.rebound (some exit.queue)) rfl rfl) <|
    passes_body (hR.course exit) hcall hpublish hplan (fun w ↦ hR.record w nofun)
      (fun w _ ↦ hR.record w nofun) arguments _ _ _ hbody
  rcases hend with ⟨plan, -, rfl⟩ | ⟨-, rfl⟩
  · let callback : Shutdown := ⟨exit.queue, w.hooks.bound⟩
    let u : World σ := { v with shutdowns := v.shutdowns ++ [callback] }
    exact hR.trans (hR.trans hv (hR.aside (v := u) rfl rfl)) (hR.record u nofun)
  · exact hR.trans hv (hR.aside rfl rfl)

end Launcher
