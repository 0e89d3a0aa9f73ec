import Mathlib
import Lox.Proofs.FrameChains
import Lox.Proofs.Rerun
import Lox.Proofs.Scope.Everywhere
import Lox.Proofs.Watches

/-!
# Distances agree with a search

Where no scope declares a name that is used inside of it with a meaning from outside, early or late,
a search for the nearest frame that binds the name leads to the frame at the distance of the name
(`Mirrors.binder?`). So a checked program that is written so runs in the same way by search
(`bySearch_eq_interpret`). An assignment in the initializer of its own variable is left out: the
frame does not bind the variable yet, so a search would pass by.
-/

namespace Lox
open Scoping Simulation

/--
Of the scopes around a place, none inside of the one that a name is resolved in comes to hold the
name.
-/
def Unshadowed (x : String) (scopes finals : List Scope) : Prop :=
  ∀ i, ∀ inside : i < finals.length, finals[i].contains x = true → ∃ d ≤ i, distance? x scopes = some d

instance (x : String) (scopes finals : List Scope) : Decidable (Unshadowed x scopes finals) :=
  inferInstanceAs (Decidable (∀ i, ∀ inside : i < finals.length, finals[i].contains x = true →
    ∃ d ≤ i, distance? x scopes = some d))

def NothingShadowed (program : List Stmt) : Prop :=
  ∀ (c : Context) (s : Scoping) (finals : List Scope) (site : Site) (r : Reference),
    Visit program c s finals site.node → site.reference? = some r → Unshadowed r.name s.scopes finals

def NothingAssignedEarly (program : List Stmt) : Prop :=
  ∀ (c : Context) (s : Scoping) (finals : List Scope) (r : Reference) (value : Expr),
    Visit program c s finals (.expr (.assign r value)) → s.isPending r.name = false

/-! ## The nearest frame that binds a name -/

section Search

variable {s : Store} {frame outer : FrameId} {x : String} {scopes finals : List Scope}

theorem Unshadowed.tail {scope final : Scope} (missing : scope.contains x = false)
    (unshadowed : Unshadowed x (scope :: scopes) (final :: finals)) : Unshadowed x scopes finals := by
  intro i inside held
  obtain ⟨d, within, found⟩ := unshadowed (i + 1) (Nat.succ_lt_succ inside) held
  rw [distance?_cons, missing] at found
  obtain ⟨d', found', rfl⟩ := Option.map_eq_some_iff.mp found
  exact ⟨d', Nat.le_of_succ_le_succ within, found'⟩

theorem Unshadowed.innermost {scope final : Scope} (missing : scope.contains x = false)
    (unshadowed : Unshadowed x (scope :: scopes) (final :: finals)) : final.contains x = false := by
  refine Bool.eq_false_iff.mpr fun held => ?_
  obtain ⟨d, within, found⟩ := unshadowed 0 (Nat.zero_lt_succ _) held
  rw [distance?_cons, missing] at found
  obtain ⟨d', -, rfl⟩ := Option.map_eq_some_iff.mp found
  cases within

/-- A search ends at the frame at the distance of the name, or at the globals if there is none. -/
theorem Mirrors.binder? (mirrors : Mirrors s frame scopes finals) (unshadowed : Unshadowed x scopes finals)
    (ready : Ready x scopes) :
    s.binder? x frame = match distance? x scopes with
      | some d => s.ancestor? frame d
      | none => s.binder? x Store.globals := by
  induction mirrors with
  | globals => rfl
  | frame link bound unbound mirrors ih =>
      rename_i frame outer scope final scopes finals
      obtain ⟨here, outside⟩ := ready_cons.mp ready
      rw [distance?_cons]
      cases held : scope.contains x with
      | true =>
          obtain ⟨value, found⟩ := Bindings.contains_iff.mp held
          cases value with
          | false => exact (here found).elim
          | true => exact Store.binder?_of_bound (bound x found)
      | false =>
          rw [Store.binder?_of_unbound (unbound x (unshadowed.innermost held)) link,
            ih (unshadowed.tail held) outside]
          cases distance? x scopes with
          | none => rfl
          | some d => exact (Store.ancestor?_succ link d).symm

end Search

/-! ## Both ways to a variable -/

section Ways

variable {m : Machine} {r : Reference} {scopes finals : List Scope}

theorem bySearch_read (entry : m.distances.find? r.id = distance? r.name scopes)
    (mirrors : Mirrors m.store m.current scopes finals) (unshadowed : Unshadowed r.name scopes finals)
    (ready : Ready r.name scopes) : Access.bySearch.read r m = lookUp r m := by
  have walk := mirrors.binder? unshadowed ready
  rw [← entry] at walk
  unfold lookUp
  simp only [Access.bySearch, Store.get?, Store.getAt?, walk]
  cases m.distances.find? r.id <;> rfl

theorem bySearch_write (entry : m.distances.find? r.id = distance? r.name scopes)
    (mirrors : Mirrors m.store m.current scopes finals) (unshadowed : Unshadowed r.name scopes finals)
    (ready : Ready r.name scopes) (value : Value) :
    Access.bySearch.write r value m = assign r value m := by
  have walk := mirrors.binder? unshadowed ready
  rw [← entry] at walk
  unfold assign
  simp only [Access.bySearch, Store.assign?, walk]
  cases m.distances.find? r.id with
  | none => simp only; cases m.store.binder? r.name Store.globals <;> rfl
  | some d => simp only; cases m.store.ancestor? m.current d <;> rfl

end Ways

/-- From this site on, both ways lead to the same variable, for an assignment also after its value. -/
structure Searchable (site : Site) (m : Machine) : Prop where
  read : ∀ r, site.reference? = some r → site.isAssignment = false →
    Access.bySearch.read r m = lookUp r m
  write : ∀ r value fuel v m', site = .expr (.assign r value) → evaluate fuel value m = .ok v m' →
    Access.bySearch.write r v m' = assign r v m'

theorem searchable_of_placed {program : List Stmt} {distances : Distances}
    (accepted : Accepted program distances) (unshadowed : NothingShadowed program)
    (settled : NothingAssignedEarly program) {site : Site} {m : Machine}
    (placed : Setting.Placed ⟨program, distances, silent⟩ site m) : Searchable site m := by
  obtain ⟨W, c, s, finals, names, l, visit, agree, chain⟩ := placed
  refine ⟨fun r here reads => ?_, ?_⟩
  · obtain ⟨entry, ready⟩ := visit.entry accepted here
    exact bySearch_read (agree.distances.symm ▸ entry) (chain.mirrors agree)
      (unshadowed c s finals site r visit here) (ready reads)
  · rintro r value fuel v m' rfl evaluated
    have ready := ready_of_isPending ((visit.tidy accepted).outer r.name) (settled c s finals r value visit)
    have outcome := (under_outcome (S := ⟨program, distances, silent⟩) accepted fuel).1
      (Visit.assigned visit) agree chain
    rw [show Setting.watch ⟨program, distances, silent⟩ = silent from rfl, (under_silent fuel).1,
      evaluated] at outcome
    generalize Lexical.evaluate _ _ _ _ = result at outcome
    cases outcome with
    | done grows agree' here _ =>
        have entry := (visit.entry accepted (r := r) rfl).1
        have mirrors := (chain.mono grows).mirrors agree'
        rw [← here] at mirrors
        exact bySearch_write (agree'.distances ▸ entry) mirrors (unshadowed c s finals _ r visit rfl) ready v

open Classical in
/-- Stops a run where a search may lead somewhere else. -/
noncomputable def searchWatch : Watch := fun site m =>
  if Searchable site m then none else some (.defect .escapedReturn)

theorem searchable_of_passed {site : Site} {m : Machine} (passed : searchWatch site m = none) :
    Searchable site m := by
  unfold searchWatch at passed
  split at passed
  · assumption
  · cases passed

theorem searchWatch_eq_some {site : Site} {m : Machine} {stop : Stop}
    (spoken : searchWatch site m = some stop) : stop = .defect .escapedReturn ∧ ¬Searchable site m := by
  unfold searchWatch at spoken
  split at spoken
  · cases spoken
  · rename_i other
    exact ⟨(Option.some.inj spoken).symm, other⟩

/-! ## The run by search -/

theorem evaluated_of_under {watch : Watch} {fuel : Nat} {e : Expr} {m m' : Machine} {v : Value}
    (evaluated : evaluateUnder watch fuel e m = .ok v m') : evaluate fuel e m = .ok v m' := by
  rcases (Watched.under fuel).1 e watch m with same | ⟨site, m₁, speaks, stops⟩
  · rw [← (under_silent fuel).1]
    exact (same silent fun _ _ _ => rfl).trans evaluated
  · obtain ⟨stop, said⟩ := Option.ne_none_iff_exists'.mp speaks
    obtain ⟨m₂, stopped⟩ := stops watch stop (fun _ _ => id) said
    cases stopped.symm.trans evaluated

noncomputable def searchRun (distances : Distances) : Rerun :=
  ⟨fun _ => True, searchWatch, distances, distances, .bySearch⟩

theorem searchRun_faithful (distances : Distances) : (searchRun distances).Faithful where
  reads r m _ sound passed := by
    rw [Rerun.there_eq rfl sound.table,
      Rerun.moved_eq rfl sound.table (keeps_distances.lookUp r m)]
    rcases passed with passed | passed | ⟨name, methods, passed⟩
    all_goals exact (searchable_of_passed passed).read r rfl rfl
  writes r value fuel v m m' _ passed evaluated sound := by
    rw [Rerun.there_eq rfl sound.table,
      Rerun.moved_eq rfl sound.table (keeps_distances.assign r v m')]
    exact (searchable_of_passed passed).write r value fuel v m' rfl (evaluated_of_under evaluated)
  inherits r method m _ sound := by
    rw [Rerun.there_eq rfl sound.table,
      Rerun.moved_eq rfl sound.table (keeps_distances.getInherited r method m)]
    rfl

/-- A run is not stopped by the watch, as frames mirror scopes wherever it gets. -/
theorem executeAll_searchWatch {program : List Stmt} {distances : Distances}
    (accepted : Accepted program distances) (unshadowed : NothingShadowed program)
    (settled : NothingAssignedEarly program) (fuel : Nat) (sink : Sink) (clock : Float) :
    executeAll (executeUnder searchWatch fuel) program { Machine.initial sink clock with distances } =
      executeAll (execute fuel) program { Machine.initial sink clock with distances } := by
  rcases silent_or_reaches fuel program distances (.initial sink clock) searchWatch with
    same | ⟨site, m, stop, reached, spoken, -⟩
  · rw [← same silent fun _ _ _ => rfl, executeUnder_silent]
  · exact ((searchWatch_eq_some spoken).2
      (searchable_of_placed accepted unshadowed settled (placed_of_reaches accepted reached))).elim

/--
A checked program in which no scope declares a name that is used inside of it for something outside of
it, and in which no local variable is assigned in its own initializer, runs by search as it runs by
distance.
-/
theorem bySearch_eq_interpret {source : String} {program : List Stmt} {distances : Distances}
    (checked : check source = .ok (program, distances)) (unshadowed : NothingShadowed program)
    (settled : NothingAssignedEarly program) (fuel : Nat) (sink : Sink) (clock : Float) :
    Access.bySearch.interpret fuel program distances (.initial sink clock) =
      interpret fuel program distances (.initial sink clock) := by
  have accepted := accepted_of_check checked
  let start : Machine := { Machine.initial sink clock with distances }
  have follows := Rerun.program_follows (searchRun_faithful distances) fuel program (m := start)
    (fun _ _ => trivial) ⟨rfl, .initial⟩
  change (searchRun distances).Follows _ (executeAll (executeUnder searchWatch fuel) program start)
    (executeAll (Access.bySearch.execute fuel) program start) at follows
  rw [executeAll_searchWatch accepted unshadowed settled] at follows
  have same : executeAll (Access.bySearch.execute fuel) program start = executeAll (execute fuel) program start := by
    rcases follows.moved_or_halted with moved | ⟨site, m₁, stop, m, spoken, ended⟩
    · rw [moved, Rerun.moved_eq rfl rfl (keeps_distances.program fuel program start)]
    · obtain ⟨rfl, -⟩ := searchWatch_eq_some spoken
      have interpreted : interpret fuel program distances (.initial sink clock) =
          .error (.defect .escapedReturn) m := by
        rw [interpret, ended]
        rfl
      exact (genuine_of_interpret accepted interpreted).elim
  rw [Access.interpret, same]
  rfl

/-- Both conditions on a program, computed at one place. -/
def searchableAt : PlaceCheck := fun _ s finals node =>
  match node with
  | .expr (.assign r _) => Unshadowed r.name s.scopes finals && !s.isPending r.name
  | .expr (.read r) | .expr (.self r) | .expr (.inherited r _) | .stmt (.classDecl _ (some r) _) =>
    Unshadowed r.name s.scopes finals
  | _ => true

theorem nothing_of_everywhere {program : List Stmt}
    (all : Node.everywhere searchableAt .topLevel .start [] (.stmts program) = true) :
    NothingShadowed program ∧ NothingAssignedEarly program := by
  refine ⟨fun c s finals site r visit here => ?_, fun c s finals r value visit => ?_⟩
  · have clear := visit.of_everywhere all
    unfold Site.reference? at here
    split at here <;> cases here <;> simp_all [searchableAt, Site.node]
  · have clear := visit.of_everywhere all
    simp_all [searchableAt]

/-- A closure that reads and assigns a variable of the block around it. -/
theorem bySearch_eq_interpret_of_closure :
    ∃ program distances,
      check "\x7b var a = nil; fun f() \x7b a = \"set\"; print a; \x7d f(); \x7d" = .ok (program, distances) ∧
      NothingShadowed program ∧ NothingAssignedEarly program ∧
      Access.bySearch.interpret 10 program distances (.initial .unlimited 0) =
        interpret 10 program distances (.initial .unlimited 0) := by
  let name (text : String) : Token := ⟨.identifier, text, 1⟩
  let program : List Stmt := [.block [.varDecl (name "a") (some (.literal .nil)),
    .funDecl ⟨name "f", [], [.expression (.assign ⟨0, name "a"⟩ (.literal (.string "set"))),
      .print (.read ⟨1, name "a"⟩)]⟩,
    .expression (.call (.read ⟨2, name "f"⟩) ⟨.symbol .rightParen, ")", 1⟩ [])]]
  have checked : check "\x7b var a = nil; fun f() \x7b a = \"set\"; print a; \x7d f(); \x7d" =
      .ok (program, ((Bindings.empty.insert 0 1).insert 1 1).insert 2 0) := by cbv
  have all : Node.everywhere searchableAt .topLevel .start [] (.stmts program) = true := by decide +kernel
  obtain ⟨unshadowed, settled⟩ := nothing_of_everywhere all
  exact ⟨program, _, checked, unshadowed, settled,
    bySearch_eq_interpret checked unshadowed settled 10 .unlimited 0⟩

end Lox
