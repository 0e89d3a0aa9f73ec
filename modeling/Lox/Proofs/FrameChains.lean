import Mathlib
import Lox.Proofs.Lexical.Simulation

/-!
# Frames mirror scopes

Whenever a checked program evaluates an expression or executes a statement, the frames from the
running one outwards are those of the scopes around it (`frames_mirror_scopes`). So a reference with
a distance always finds its frame, and only references without one can fail. A superclass is looked
up by the statement that declares the class, which binds the name of the class later.
-/

namespace Lox
open Scoping Simulation

/--
From a frame outwards there is just one frame for each scope, and then the globals. A frame binds
what its scope has ready, and nothing that its scope does not hold in the end.
-/
inductive Mirrors (s : Store) : FrameId → List Scope → List Scope → Prop where
  | globals : s.enclosing? Store.globals = none → Mirrors s Store.globals [] []
  | frame {frame outer : FrameId} {scope final : Scope} {scopes finals : List Scope} :
      s.enclosing? frame = some outer → (∀ x, scope.find? x = some true → (s.read? frame x).isSome) →
      (∀ x, final.contains x = false → s.read? frame x = none) → Mirrors s outer scopes finals →
      Mirrors s frame (scope :: scopes) (final :: finals)

def Site.reference? : Site → Option Reference
  | .expr (.read r) | .expr (.assign r _) | .expr (.self r) | .expr (.inherited r _) => some r
  | .stmt (.classDecl _ superclass _) => superclass
  | _ => none

def Site.isAssignment : Site → Bool
  | .expr (.assign ..) => true
  | _ => false

/-- What the frames of a machine are at a site of a checked program. -/
structure Mirrored (program : List Stmt) (distances : Distances) (site : Site)
    (m : Machine) : Prop where
  table : m.distances = distances
  chain : ∃ c s finals, Visit program c s finals site.node ∧ Mirrors m.store m.current s.scopes finals ∧
    ∀ r d, site.reference? = some r → distances.find? r.id = some d → d < s.scopes.length
  found : ∀ r d, site.reference? = some r → distances.find? r.id = some d →
    ∃ frame, m.store.ancestor? m.current d = some frame ∧
      (site.isAssignment = false → (m.store.read? frame r.name).isSome)
  assigned : ∀ r value d fuel v m', site = .expr (.assign r value) → distances.find? r.id = some d →
    evaluate fuel value m = .ok v m' → ∃ m'', assign r v m' = .ok () m''

theorem Simulation.Chain.mirrors {S : Setting} {W : World} {m : Machine} {r : Lexical.Machine}
    {frame : FrameId} {scopes finals : List Scope} {names : Lexical.Names} (agree : S.Agree W m r)
    (chain : Chain W frame scopes finals names) : Mirrors m.store frame scopes finals := by
  induction chain with
  | globals => exact .globals Store.enclosing?_globals
  | frame older link bound located others rest ih =>
      rename_i frame outer scope scopes finals names outerNames
      have notGlobals := (Chain.frame older link bound located others rest).ne_globals
      rw [agree.store] at link bound
      refine .frame link bound (fun x free => ?_) ih
      cases location : W.location frame x with
      | none => exact agree.store ▸ agree.unlocated frame x notGlobals location
      | some l =>
          have held := (agree.inside frame x l location).2.2.2
          rw [free] at held
          cases held

theorem Visit.entry {program : List Stmt} {distances : Distances}
    (accepted : Accepted program distances) {c : Context} {s : Scoping} {finals : List Scope}
    {site : Site} {r : Reference} (visit : Visit program c s finals site.node)
    (here : site.reference? = some r) : distances.find? r.id = distance? r.name s.scopes ∧
      (site.isAssignment = false → Ready r.name s.scopes) := by
  unfold Site.reference? at here
  split at here
  · cases here
    obtain ⟨entry, ready⟩ := Visit.read_inv accepted visit
    exact ⟨entry, fun _ => ready⟩
  · cases here
    exact ⟨(Visit.assign_inv accepted visit).1, fun plain => by cases plain⟩
  · cases here
    obtain ⟨entry, ready⟩ := Visit.self_inv accepted visit
    exact ⟨entry, fun _ => ready⟩
  · cases here
    obtain ⟨name, inner, entry, -, super⟩ := Visit.inherited_inv accepted visit
    rw [name, entry, super]
    exact ⟨rfl, fun _ => (visit.tidy accepted).super⟩
  · subst here
    obtain ⟨entry, ready, -⟩ := Visit.superclass_inv accepted visit
    exact ⟨entry, fun _ => ready⟩
  · cases here

theorem assign_of_placed {program : List Stmt} {distances : Distances} (accepted : Accepted program distances)
    {r : Reference} {value : Expr} {d level : Nat} {v : Value} {m m' : Machine}
    (placed : Setting.Placed ⟨program, distances, silent⟩ (.expr (.assign r value)) m)
    (entry : distances.find? r.id = some d) (evaluated : evaluate level value m = .ok v m') :
    ∃ c s finals, Visit program c s finals (.expr (.assign r value)) ∧ distance? r.name s.scopes = some d ∧
      ∃ f, m'.store.ancestor? m'.current d = some f ∧ assign r v m' = Run.define f r.name v m' ∧
        (Ready r.name s.scopes → (m'.store.read? f r.name).isSome) := by
  obtain ⟨W, c, s, finals, names, r', visit, agree, chain⟩ := placed
  have found : distance? r.name s.scopes = some d := (visit.assign_inv accepted).1.symm.trans entry
  have outcome := (under_outcome (S := ⟨program, distances, silent⟩) accepted level).1
    visit.assigned agree chain
  rw [show Setting.watch ⟨program, distances, silent⟩ = silent from rfl, (under_silent level).1,
    evaluated] at outcome
  generalize Lexical.evaluate _ _ _ _ = result at outcome
  cases outcome with
  | done grows agree' here _ =>
      obtain ⟨holder, l, reached, -, -, bound⟩ := (chain.mono grows).of_distance found
      rw [agree'.store, ← here] at reached
      rw [agree'.store] at bound
      have entry' : m'.distances.find? r.id = some d := agree'.distances ▸ entry
      refine ⟨c, s, finals, visit, found, holder, reached, ?_, bound⟩
      rw [assign]
      simp only [entry', reached]

theorem mirrored_of_placed {program : List Stmt} {distances : Distances}
    (accepted : Accepted program distances) {site : Site} {m : Machine}
    (placed : Setting.Placed ⟨program, distances, silent⟩ site m) :
    Mirrored program distances site m := by
  have ⟨W, c, s, finals, names, r, visit, agree, chain⟩ := placed
  have reached (r : Reference) (d : Nat) (here : site.reference? = some r)
    (entry : distances.find? r.id = some d) :
      distance? r.name s.scopes = some d ∧ (site.isAssignment = false → Ready r.name s.scopes) := by
    obtain ⟨same, ready⟩ := visit.entry accepted here
    exact ⟨same ▸ entry, ready⟩
  refine ⟨agree.distances, ⟨c, s, finals, visit, chain.mirrors agree, fun r d here entry => ?_⟩,
    fun r d here entry => ?_, ?_⟩
  · obtain ⟨inside, -⟩ := List.findIdx?_eq_some_iff_getElem.mp (reached r d here entry).1
    exact inside
  · obtain ⟨found, ready⟩ := reached r d here entry
    obtain ⟨holder, l, holds, -, -, bound⟩ := chain.of_distance found
    rw [agree.store] at holds bound
    exact ⟨holder, holds, fun reads => bound (ready reads)⟩
  · rintro r value d fuel v m' rfl entry evaluated
    obtain ⟨_, _, _, -, -, f, -, defines, -⟩ := assign_of_placed accepted placed entry evaluated
    rw [defines]
    exact ⟨_, rfl⟩

end Lox
