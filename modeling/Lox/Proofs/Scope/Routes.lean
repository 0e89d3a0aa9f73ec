import Lox.Proofs.ScopeRules

/-!
# Paths to places

Each place that the walk over a program gets to has a path there, and its occurrences with this path are
occurrences of the program (`Visit.located`). So an assignment to a name that is pending stands in the
initializer of just this name (`Visit.assigns_pending`).
-/

namespace Lox
open Scoping

/-- The walk gets to the node in this state, on a path of the program. -/
def Node.Located (program : List Stmt) (s : Scoping) : Node → Prop
  | expr e => ∃ path, Matches path s ∧ e.occurrences path ⊆ occurrences program
  | exprs es => ∃ path, Matches path s ∧ Expr.occurrencesAll path es ⊆ occurrences program
  | stmt a => ∃ path, Stands path s ∧ a.occurrences path ⊆ occurrences program
  | stmts body => ∃ place before, Opens place ∧ Stands (place before) s ∧
      Stmt.occurrencesAll place before body ⊆ occurrences program
  | function _ f => ∃ layer kind path, Calls layer kind ∧ Stands path s ∧
      f.occurrences layer path ⊆ occurrences program
  | methods fs => ∃ path, Stands path s ∧ FunctionDecl.occurrencesAll path fs ⊆ occurrences program

variable {program : List Stmt} {distances : Distances} {c : Context} {s : Scoping} {finals : List Scope}
  {node : Node}

theorem Visit.located (accepted : Accepted program distances) (visit : Visit program c s finals node) :
    node.Located program s := by
  induction visit with
  | program =>
      exact ⟨fun _ => [], [], opens_program, ⟨.nil, fun _ => nofun, fun _ => rfl⟩, List.Subset.refl _⟩
  | grouping _ ih | unary _ ih | getObject _ ih =>
      obtain ⟨path, here, listed⟩ := ih
      exact ⟨path, here, listed⟩
  | binaryLeft _ ih | logicalLeft _ ih | assigned _ ih | callee _ ih | setObject _ ih | argument _ ih =>
      obtain ⟨path, here, listed⟩ := ih
      exact ⟨path, here, (List.append_subset.mp listed).1⟩
  | binaryRight _ ih | logicalRight _ ih | arguments _ ih | setValue _ ih | moreArguments _ ih =>
      obtain ⟨path, here, listed⟩ := ih
      exact ⟨path, here.congr (expr_scopes _ _ _), (List.append_subset.mp listed).2⟩
  | expression _ ih | print _ ih =>
      obtain ⟨path, here, listed⟩ := ih
      exact ⟨path, here.matches, listed⟩
  | @«initializer» _ _ _ name _ _ ih =>
      obtain ⟨path, here, listed⟩ := ih
      exact ⟨.initializer name :: path, here.declare name, listed⟩
  | block _ ih =>
      obtain ⟨path, here, listed⟩ := ih
      exact ⟨fun before => .block before :: path, [], opens_block path, here.inBlock, listed⟩
  | @condition _ _ _ _ _ elseBranch _ ih =>
      obtain ⟨path, here, listed⟩ := ih
      cases elseBranch <;> exact ⟨path, here.matches, (List.append_subset.mp listed).1⟩
  | @thenBranch _ _ _ _ _ elseBranch _ ih =>
      obtain ⟨path, here, listed⟩ := ih
      refine ⟨path, here.congr (expr_scopes _ _ _), ?_⟩
      cases elseBranch with
      | none => exact (List.append_subset.mp listed).2
      | some elseBranch => exact (List.append_subset.mp (List.append_subset.mp listed).2).1
  | @elseBranch c s _ condition thenBranch _ visit ih =>
      have formed := visit.wellFormed accepted
      simp only [Node.WellFormed, Stmt.WellFormed] at formed
      obtain ⟨path, here, listed⟩ := ih
      -- a branch is no declaration, so the walk over the first one leaves the scopes as they are
      have between := stmt_scopes c thenBranch (expr c condition s) formed.2.1.plain
      rw [scopesAfter_plain formed.2.2.1] at between
      have branches := List.append_subset.mp (List.append_subset.mp listed).2
      exact ⟨path, here.congr (between.trans (expr_scopes _ _ _)), branches.2⟩
  | loopCondition _ ih =>
      obtain ⟨path, here, listed⟩ := ih
      exact ⟨path, here.matches, (List.append_subset.mp listed).1⟩
  | loopBody _ ih =>
      obtain ⟨path, here, listed⟩ := ih
      exact ⟨path, here.congr (expr_scopes _ _ _), (List.append_subset.mp listed).2⟩
  | @function _ _ _ declaration _ ih =>
      obtain ⟨path, here, listed⟩ := ih
      exact ⟨.function, _, _, calls_function, here.introduce declaration.name, listed⟩
  | result _ ih =>
      obtain ⟨path, here, listed⟩ := ih
      refine ⟨path, here.matches.congr ((reportIf_scopes _ _ _ _).trans (reportIf_scopes _ _ _ _)), ?_⟩
      exact List.Subset.trans (List.subset_cons_self _ _) listed
  | @methods _ _ _ name superclass methods _ ih =>
      obtain ⟨path, here, listed⟩ := ih
      exact ⟨_, (here.introduce name).inClass name superclass methods, (List.append_subset.mp listed).2⟩
  | statement _ ih =>
      obtain ⟨place, before, opens, here, listed⟩ := ih
      exact ⟨place before, here, (List.append_subset.mp listed).1⟩
  | @moreStatements c s _ first _ visit ih =>
      have formed := visit.wellFormed accepted
      simp only [Node.WellFormed, Stmt.WellFormedAll] at formed
      obtain ⟨place, before, opens, here, listed⟩ := ih
      have after := here.after opens formed.1.plain c
      exact ⟨place, before ++ [first], opens, after, (List.append_subset.mp listed).2⟩
  | body _ ih =>
      obtain ⟨layer, kind, path, calls, here, listed⟩ := ih
      exact ⟨_, [], calls.opens _ path, here.inFunction calls _, listed⟩
  | method _ ih =>
      obtain ⟨path, here, listed⟩ := ih
      exact ⟨.method, _, path, calls_method, here, (List.append_subset.mp listed).1⟩
  | moreMethods visit ih =>
      have formed := visit.wellFormed accepted
      simp only [Node.WellFormed, FunctionDecl.WellFormedAll] at formed
      obtain ⟨path, here, listed⟩ := ih
      exact ⟨path, here.congr (function_scopes _ _ _ _ formed.1.plain), (List.append_subset.mp listed).2⟩

/-- The reference is assigned somewhere in the expression. -/
def Expr.Assigns (e : Expr) (r : Reference) : Prop := ∀ path, (path, .assign r) ∈ e.occurrences path

theorem Expr.assigns_self (r : Reference) (value : Expr) : (Expr.assign r value).Assigns r := by
  intro path
  rw [Expr.occurrences]
  exact List.mem_append_right _ (List.mem_singleton_self _)

theorem Visit.assigns_entry {tokens : List Token} {e : Expr} {r : Reference}
    (parsed : parseProgram tokens = .ok program) (resolved : Distances.ofProgram program = .ok distances)
    (accepted : Accepted program distances) (visit : Visit program c s finals (.expr e))
    (assigned : e.Assigns r) : distances.find? r.id = distance? r.name s.scopes := by
  obtain ⟨path, here, listed⟩ := visit.located accepted
  rw [find?_of_occurrence parsed resolved (listed (assigned path)) rfl, here.scopes.distance?]

theorem distance?_of_isPending {name : String} (pending : s.isPending name = true) :
    distance? name s.scopes = some 0 := by
  obtain ⟨scopes, distances, errors⟩ := s
  cases scopes with
  | nil => cases pending
  | cons scope outer =>
      have held : scope.find? name = some false := by simpa [isPending] using pending
      rw [distance?_cons, if_pos (Bindings.contains_iff.mpr ⟨false, held⟩)]

/-- An assignment stands in the initializer of its own variable, or it is to a name that is ready. -/
theorem Visit.assigns_pending {e : Expr} {r : Reference} (accepted : Accepted program distances)
    (visit : Visit program c s finals (.expr e)) (assigned : e.Assigns r) :
    (s.isPending r.name = true ∧
      ∃ path, (path, .assign r) ∈ occurrences program ∧ path.initializes r.name = true) ∨
        Ready r.name s.scopes := by
  obtain ⟨path, here, listed⟩ := visit.located accepted
  cases pending : s.isPending r.name with
  | true => exact .inl ⟨rfl, path, listed (assigned path), (here.pending r.name).symm.trans pending⟩
  | false => exact .inr (ready_of_isPending ((visit.tidy accepted).outer r.name) pending)

end Lox
