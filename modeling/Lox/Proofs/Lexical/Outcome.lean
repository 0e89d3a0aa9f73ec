import Lox.Proofs.Lexical.Steps
import Lox.Proofs.Supervision

/-!
# Outcomes of corresponding runs

How a step of a run over frames and the corresponding step over locations come out (`Outcome`): both
are done, in machines that agree, or both stop for the same reason with the same output. The run
over frames may also be stopped by its watch, but then at a site whose frames mirror the scopes
there.
-/

namespace Lox

def Site.node : Site → Node
  | expr e => .expr e
  | stmt a => .stmt a

namespace Simulation

structure Setting where
  program : List Stmt
  distances : Distances
  watch : Watch

namespace Setting

variable (S : Setting)

abbrev Agree : World → Machine → Lexical.Machine → Prop := Simulation.Agree S.program S.distances

abbrev Visit : Context → Scoping → List Scope → Node → Prop := Lox.Visit S.program

abbrev RelatedValue : World → Value → Lexical.Value → Prop := Simulation.RelatedValue S.program

/-- The frames of a machine correspond to the scopes around a site. -/
def Placed (site : Site) (m : Machine) : Prop :=
  ∃ W c s finals names r, S.Visit c s finals site.node ∧ S.Agree W m r ∧
    Chain W m.current s.scopes finals names

def Genuine : Stop → Prop
  | .defect _ => False
  | .runtime ⟨.undefinedVariable x, line⟩ =>
    ∃ r ∈ Stmt.referencesAll S.program, r.name = x ∧ r.line = line ∧ S.distances.find? r.id = none
  | _ => True

end Setting

/-- Results of corresponding steps that started in a world and end in a frame. -/
inductive Outcome (S : Setting) (touched : Option FrameId) (W : World) (frame : FrameId) {α β : Type}
    (post : World → α → β → Prop) :
    EStateM.Result Stop Machine α → EStateM.Result Stop Lexical.Machine β → Prop where
  | done {W' : World} {v : α} {w : β} {m : Machine} {r : Lexical.Machine} :
      W.Grows touched W' → S.Agree W' m r → m.current = frame → post W' v w →
      Outcome S touched W frame post (.ok v m) (.ok w r)
  | stopped {stop : Stop} {m : Machine} {r : Lexical.Machine} :
      S.Genuine stop → r.sink = m.sink → Outcome S touched W frame post (.error stop m) (.error stop r)
  | watched {stop : Stop} {m m₀ : Machine} {site : Site}
      {result : EStateM.Result Stop Lexical.Machine β} :
      S.watch site m₀ = some stop → S.Placed site m₀ →
        Outcome S touched W frame post (.error stop m) result

namespace Outcome

variable {S : Setting} {touched : Option FrameId} {W W₁ : World} {frame : FrameId} {α β γ δ : Type}
  {post : World → α → β → Prop} {post' : World → γ → δ → Prop} {m : Machine} {r : Lexical.Machine}

theorem pure {v : α} {w : β} (agree : S.Agree W m r) (holds : post W v w) :
    Outcome S touched W m.current post ((Pure.pure v : Run α) m)
    ((Pure.pure w : Lexical.Run β) r) :=
  .done .refl agree rfl holds

theorem raise {cause : RuntimeError.Cause} {token : Token} (agree : S.Agree W m r)
    (genuine : S.Genuine (.runtime ⟨cause, token.line⟩)) :
    Outcome S touched W frame post ((Run.raise cause token : Run α) m)
    ((Run.raise cause token : Lexical.Run β) r) :=
  .stopped genuine agree.sink

theorem starve (agree : S.Agree W m r) :
    Outcome S touched W frame post ((Run.starve : Run α) m) ((Run.starve : Lexical.Run β) r) :=
  .stopped trivial agree.sink

theorem after {result : EStateM.Result Stop Machine α}
    {result' : EStateM.Result Stop Lexical.Machine β} (grows : W.Grows touched W₁)
    (outcome : Outcome S touched W₁ frame post result result') :
    Outcome S touched W frame post result result' := by
  cases outcome with
  | done grows' agree here holds => exact .done (grows.trans grows') agree here holds
  | stopped genuine sink => exact .stopped genuine sink
  | watched fired placed => exact .watched fired placed

theorem imp {post' : World → α → β → Prop} {result : EStateM.Result Stop Machine α}
    {result' : EStateM.Result Stop Lexical.Machine β}
    (outcome : Outcome S touched W frame post result result')
    (imp : ∀ W' v w, W.Grows touched W' → post W' v w → post' W' v w) :
    Outcome S touched W frame post' result result' := by
  cases outcome with
  | done grows agree here holds => exact .done grows agree here (imp _ _ _ grows holds)
  | stopped genuine sink => exact .stopped genuine sink
  | watched fired placed => exact .watched fired placed

theorem weaken {result : EStateM.Result Stop Machine α}
    {result' : EStateM.Result Stop Lexical.Machine β}
    (outcome : Outcome S none W frame post result result') :
    Outcome S touched W frame post result result' := by
  cases outcome with
  | done grows agree here holds => exact .done grows.weaken agree here holds
  | stopped genuine sink => exact .stopped genuine sink
  | watched fired placed => exact .watched fired placed

theorem fresh {new : FrameId} {result : EStateM.Result Stop Machine α}
    {result' : EStateM.Result Stop Lexical.Machine β} (grows : W.Grows touched W₁)
    (outcome : Outcome S (some new) W₁ frame post result result')
    (later : W.store.frames.size ≤ new) :
    Outcome S touched W frame post result result' := by
  cases outcome with
  | done grows' agree here holds => exact .done (grows.fresh grows' later) agree here holds
  | stopped genuine sink => exact .stopped genuine sink
  | watched fired placed => exact .watched fired placed

theorem bind {x : Run α} {y : Lexical.Run β} {f : α → Run γ} {g : β → Lexical.Run δ}
    (first : Outcome S touched W frame post (x m) (y r))
    (rest : ∀ W' v w m' r', W.Grows touched W' → S.Agree W' m' r' → m'.current = frame → post W' v w →
      Outcome S touched W' frame post' (f v m') (g w r')) :
    Outcome S touched W frame post' ((x >>= f) m) ((y >>= g) r) := by
  change Outcome S touched W frame post' (EStateM.bind x f m) (EStateM.bind y g r)
  unfold EStateM.bind
  cases first' : x m with
  | ok v m' =>
      cases second : y r with
      | ok w r' =>
          rw [first', second] at first
          obtain ⟨grows, agree, here, holds⟩ | _ | _ := first
          exact .after grows (rest _ v w m' r' grows agree here holds)
      | error stop r' =>
          rw [first', second] at first
          cases first
  | error stop m' =>
      rw [first'] at first
      cases second : y r with
      | ok w r' =>
          rw [second] at first
          obtain _ | _ | ⟨fired, placed⟩ := first
          exact .watched fired placed
      | error stop' r' =>
          rw [second] at first
          obtain _ | ⟨genuine, sink⟩ | ⟨fired, placed⟩ := first
          · exact .stopped genuine sink
          · exact .watched fired placed

/-- Evaluations touch no frame, whatever comes after them does. -/
theorem bindEvaluated {x : Run α} {y : Lexical.Run β} {f : α → Run γ} {g : β → Lexical.Run δ}
    (first : Outcome S none W frame post (x m) (y r))
    (rest : ∀ W' v w m' r', W.Grows none W' → S.Agree W' m' r' → m'.current = frame → post W' v w →
      Outcome S touched W' frame post' (f v m') (g w r')) :
    Outcome S touched W frame post' ((x >>= f) m) ((y >>= g) r) :=
  .bind (.weaken (first.imp fun _ _ _ grows holds => And.intro grows holds))
    fun W' v w m' r' _ agree here holds => rest W' v w m' r' holds.1 agree here holds.2

theorem mapRight {result : EStateM.Result Stop Machine α} {y : Lexical.Run β} {g : β → δ}
    {post' : World → α → δ → Prop} (outcome : Outcome S touched W frame post result (y r))
    (imp : ∀ W' v w, W.Grows touched W' → post W' v w → post' W' v (g w)) :
    Outcome S touched W frame post' result ((y >>= fun w => Pure.pure (g w)) r) := by
  change Outcome S touched W frame post' result (EStateM.bind y (fun w => Pure.pure (g w)) r)
  unfold EStateM.bind
  cases second : y r with
  | ok w r' =>
      rw [second] at outcome
      obtain ⟨grows, agree, here, holds⟩ | _ | ⟨fired, placed⟩ := outcome
      · exact .done grows agree here (imp _ _ w grows holds)
      · exact .watched fired placed
  | error stop r' =>
      rw [second] at outcome
      obtain _ | ⟨genuine, sink⟩ | ⟨fired, placed⟩ := outcome
      · exact .stopped genuine sink
      · exact .watched fired placed

theorem within {inner : FrameId} {x : Run α} {y : Lexical.Run β}
    (outcome : Outcome S touched W inner post (x { m with current := inner }) (y r)) :
    Outcome S touched W m.current post (Run.within inner x m) (y r) := by
  unfold Run.within
  generalize y r = result' at outcome ⊢
  cases first : x { m with current := inner } with
  | ok v m' =>
      rw [first] at outcome
      cases outcome with
      | done grows agree here holds => exact .done grows (agree.entered _) rfl holds
  | error stop m' =>
      rw [first] at outcome
      cases outcome with
      | stopped genuine sink => exact .stopped genuine sink
      | watched fired placed => exact .watched fired placed

theorem supervised {site : Site} {x : Run α} {y : Lexical.Run β} (placed : S.Placed site m)
    (outcome : Outcome S touched W frame post (x m) (y r)) :
    Outcome S touched W frame post (Lox.supervised S.watch site x m) (y r) := by
  unfold Lox.supervised
  split
  · rename_i stop fired
    exact .watched fired placed
  · exact outcome

end Outcome

end Simulation

end Lox
