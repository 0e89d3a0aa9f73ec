import Lox.Proofs.Scope.Occurrences

/-!
# Paths in well-formed programs

In a well-formed program no path declares `this` or `super` but by its classes
(`named_of_occurrence`). So the innermost scopes with these names are those of the innermost class
around (`Path.nearest_keywords`).
-/

namespace Lox

namespace Path

def Named : Path → Prop
  | [] => True
  | .initializer name :: outer | .heading name :: outer => IsName name.lexeme ∧ Named outer
  | .block before :: outer => (∀ name ∈ before.filterMap Stmt.declared?, IsName name) ∧ Named outer
  | .function declaration before :: outer | .method declaration before :: outer =>
    (∀ name ∈ declaration.params.map Token.lexeme ++ before.filterMap Stmt.declared?, IsName name) ∧
      Named outer
  | .classBody _ :: outer => Named outer

theorem named_nil : Named [] := trivial

end Path

theorem Stmt.WellFormed.declared {a : Stmt} (formed : a.WellFormed) :
    ∀ name ∈ a.declared?, IsName name := by
  cases a with
  | varDecl name initializer =>
      rw [Stmt.WellFormed] at formed
      rintro _ ⟨⟩
      exact formed.1
  | funDecl declaration =>
      obtain ⟨name, params, body⟩ := declaration
      rw [Stmt.WellFormed, FunctionDecl.WellFormed] at formed
      rintro _ ⟨⟩
      exact formed.1
  | classDecl name superclass methods =>
      rw [Stmt.WellFormed] at formed
      rintro _ ⟨⟩
      exact formed.1
  | _ => nofun

/-! ## Occurrences -/

mutual

theorem Expr.path_of_mem {path : Path} {entry : Path × Occurrence} :
    ∀ {e : Expr}, entry ∈ e.occurrences path → entry.1 = path
  | .literal _, mem => by
      rw [Expr.occurrences] at mem
      cases mem
  | .grouping inner, mem | .unary _ inner, mem | .get inner _, mem => by
      rw [Expr.occurrences] at mem
      exact inner.path_of_mem mem
  | .binary left _ right, mem | .logical left _ right, mem | .set left _ right, mem => by
      rw [Expr.occurrences, List.mem_append] at mem
      exact mem.elim left.path_of_mem right.path_of_mem
  | .read _, mem | .self _, mem | .inherited _ _, mem => by
      rw [Expr.occurrences, List.mem_singleton] at mem
      rw [mem]
  | .assign _ value, mem => by
      rw [Expr.occurrences, List.mem_append, List.mem_singleton] at mem
      exact mem.elim value.path_of_mem fun same => congrArg Prod.fst same
  | .call callee _ arguments, mem => by
      rw [Expr.occurrences, List.mem_append] at mem
      exact mem.elim callee.path_of_mem Expr.path_of_memAll

theorem Expr.path_of_memAll {path : Path} {entry : Path × Occurrence} :
    ∀ {es : List Expr}, entry ∈ Expr.occurrencesAll path es → entry.1 = path
  | [], mem => by
      rw [Expr.occurrencesAll] at mem
      cases mem
  | first :: _, mem => by
      rw [Expr.occurrencesAll, List.mem_append] at mem
      exact mem.elim first.path_of_mem Expr.path_of_memAll

end

theorem Expr.named_of_mem {path : Path} {entry : Path × Occurrence} {e : Expr} (named : path.Named)
    (mem : entry ∈ e.occurrences path) : entry.1.Named := by
  rwa [Expr.path_of_mem mem]

theorem Expr.named_of_mem? {path : Path} {entry : Path × Occurrence} {e : Option Expr}
    (named : path.Named) (mem : entry ∈ Expr.occurrences? path e) : entry.1.Named := by
  cases e with
  | none => cases mem
  | some value => exact value.named_of_mem named mem

def Declare (before : List Stmt) : Prop := ∀ name ∈ before.filterMap Stmt.declared?, IsName name

theorem declare_nil : Declare [] := List.forall_mem_nil _

theorem declare_snoc {before : List Stmt} {a : Stmt} (named : Declare before) (formed : a.WellFormed) :
    Declare (before ++ [a]) := by
  intro name mem
  rw [List.filterMap_append, List.mem_append] at mem
  rcases mem with old | new
  · exact named name old
  · exact formed.declared name (by simpa using new)

mutual

theorem Stmt.named_of_mem {entry : Path × Occurrence} : ∀ {a : Stmt} {path : Path}, a.WellFormed →
    path.Named → entry ∈ a.occurrences path → entry.1.Named
  | .expression value, path, _, named, mem | .print value, path, _, named, mem => by
      rw [Stmt.occurrences] at mem
      exact value.named_of_mem named mem
  | .varDecl name _, path, formed, named, mem => by
      rw [Stmt.WellFormed] at formed
      rw [Stmt.occurrences] at mem
      have inside : Path.Named (.initializer name :: path) := ⟨formed.1, named⟩
      exact Expr.named_of_mem? inside mem
  | .block body, path, formed, named, mem => by
      rw [Stmt.WellFormed] at formed
      rw [Stmt.occurrences] at mem
      have inside (before : List Stmt) (declared : Declare before) :
          Path.Named (.block before :: path) := ⟨declared, named⟩
      exact Stmt.named_of_memAll formed inside declare_nil mem
  | .ifElse condition thenBranch none, path, formed, named, mem => by
      rw [Stmt.WellFormed] at formed
      rw [Stmt.occurrences, List.mem_append] at mem
      exact mem.elim (condition.named_of_mem named) (thenBranch.named_of_mem formed.2.1 named)
  | .ifElse condition thenBranch (some elseBranch), path, formed, named, mem => by
      rw [Stmt.WellFormed] at formed
      rw [Stmt.occurrences, List.mem_append, List.mem_append] at mem
      exact mem.elim (condition.named_of_mem named) fun mem =>
        mem.elim (thenBranch.named_of_mem formed.2.1 named)
          (elseBranch.named_of_mem formed.2.2.2.1 named)
  | .whileLoop condition body, path, formed, named, mem => by
      rw [Stmt.WellFormed] at formed
      rw [Stmt.occurrences, List.mem_append] at mem
      exact mem.elim (condition.named_of_mem named) (body.named_of_mem formed.2.1 named)
  | .funDecl declaration, path, formed, named, mem => by
      have isName := formed.declared _ rfl
      rw [Stmt.WellFormed] at formed
      rw [Stmt.occurrences] at mem
      have heading : Path.Named (.heading declaration.name :: path) := ⟨isName, named⟩
      exact declaration.named_of_mem (.inl rfl) formed heading mem
  | .returnStmt _ _, path, _, named, mem => by
      rw [Stmt.occurrences, List.mem_cons] at mem
      rcases mem with rfl | mem
      · exact named
      · exact Expr.named_of_mem? named mem
  | .classDecl name superclass methods, path, formed, named, mem => by
      rw [Stmt.WellFormed] at formed
      rw [Stmt.occurrences, List.mem_append] at mem
      have heading : Path.Named (.heading name :: path) := ⟨formed.1, named⟩
      rcases mem with mem | mem
      · obtain ⟨parent, -, rfl⟩ := List.mem_map.mp mem
        exact heading
      · have inside : Path.Named (.classBody ⟨name, superclass, methods⟩ :: .heading name :: path) :=
          heading
        exact FunctionDecl.named_of_memAll formed.2.2 inside mem

theorem Stmt.named_of_memAll {entry : Path × Occurrence} :
    ∀ {body : List Stmt} {place : List Stmt → Path} {before : List Stmt}, Stmt.WellFormedAll body →
    (∀ before, Declare before → (place before).Named) → Declare before →
    entry ∈ Stmt.occurrencesAll place before body → entry.1.Named
  | [], _, _, _, _, _, mem => by
      rw [Stmt.occurrencesAll] at mem
      cases mem
  | first :: _, place, before, formed, named, declared, mem => by
      rw [Stmt.WellFormedAll] at formed
      rw [Stmt.occurrencesAll, List.mem_append] at mem
      exact mem.elim (first.named_of_mem formed.1 (named before declared))
        (Stmt.named_of_memAll formed.2 named (declare_snoc declared formed.1))

theorem FunctionDecl.named_of_mem {entry : Path × Occurrence} :
    ∀ {f : FunctionDecl} {layer : FunctionDecl → List Stmt → Layer} {path : Path},
    (layer = .function ∨ layer = .method) → f.WellFormed → path.Named →
    entry ∈ f.occurrences layer path → entry.1.Named
  | ⟨name, params, body⟩, layer, path, kind, formed, named, mem => by
      rw [FunctionDecl.WellFormed] at formed
      rw [FunctionDecl.occurrences] at mem
      refine Stmt.named_of_memAll formed.2.2 (fun before declared => ?_) declare_nil mem
      have all : ∀ x ∈ params.map Token.lexeme ++ before.filterMap Stmt.declared?, IsName x := by
        rw [List.forall_mem_append, List.forall_mem_map]
        exact ⟨formed.2.1, declared⟩
      rcases kind with rfl | rfl <;> exact ⟨all, named⟩

theorem FunctionDecl.named_of_memAll {entry : Path × Occurrence} :
    ∀ {methods : List FunctionDecl} {path : Path}, FunctionDecl.WellFormedAll methods →
    path.Named → entry ∈ FunctionDecl.occurrencesAll path methods → entry.1.Named
  | [], _, _, _, mem => by
      rw [FunctionDecl.occurrencesAll] at mem
      cases mem
  | first :: _, path, formed, named, mem => by
      rw [FunctionDecl.WellFormedAll] at formed
      rw [FunctionDecl.occurrencesAll, List.mem_append] at mem
      exact mem.elim (first.named_of_mem (.inr rfl) formed.1 named)
        (FunctionDecl.named_of_memAll formed.2 named)

end

theorem named_of_occurrence {program : List Stmt} {entry : Path × Occurrence}
    (formed : Stmt.WellFormedAll program) (mem : entry ∈ occurrences program) : entry.1.Named :=
  Stmt.named_of_memAll formed (fun _ _ => Path.named_nil) declare_nil mem

/-! ## Keywords -/

theorem nearest?_cons (name : String) (names : List String) (outer : List (List String)) :
    nearest? name (names :: outer) =
      if name ∈ names then some 0 else (nearest? name outer).map (· + 1) := by
  simp [nearest?, List.findIdx?_cons]

theorem nearest?_cons_inv {name : String} {names : List String} {outer : List (List String)}
    {distance : Nat} (other : name ∉ names)
    (found : nearest? name (names :: outer) = some distance) :
    ∃ inner, nearest? name outer = some inner ∧ distance = inner + 1 := by
  rw [nearest?_cons, if_neg other, Option.map_eq_some_iff] at found
  obtain ⟨inner, found, rfl⟩ := found
  exact ⟨inner, found, rfl⟩

theorem nearest?_declaring {name declared : String} (different : name ≠ declared)
    (scopes : List (List String)) :
    nearest? name (Path.declaring declared scopes) = nearest? name scopes := by
  cases scopes with
  | nil => rfl
  | cons names outer => simp [Path.declaring, nearest?_cons, different]

/-- Around the innermost class that inherits are the scopes of `this` and, next to it, `super`. -/
theorem Path.nearest_keywords {path : Path} {K : ClassDecl} (named : path.Named)
    (around : path.class? = some K) (derived : K.superclass.isSome) :
    ∃ inner, nearest? "this" path.scopes = some inner ∧
      nearest? "super" path.scopes = some (inner + 1) := by
  have beyond {names : List String} {scopes : List (List String)}
      (isName : ∀ name ∈ names, IsName name) (within : ∃ inner, nearest? "this" scopes = some inner ∧
        nearest? "super" scopes = some (inner + 1)) :
      ∃ inner, nearest? "this" (names :: scopes) = some inner ∧
        nearest? "super" (names :: scopes) = some (inner + 1) := by
    obtain ⟨inner, this, super⟩ := within
    refine ⟨inner + 1, ?_, ?_⟩
    · rw [nearest?_cons, if_neg fun mem => (isName _ mem).1 rfl, this]
      rfl
    · rw [nearest?_cons, if_neg fun mem => (isName _ mem).2 rfl, super]
      rfl
  induction path with
  | nil => cases around
  | cons layer outer ih =>
      cases layer with
      | initializer name | heading name =>
          obtain ⟨isName, named⟩ := named
          rw [Path.scopes, nearest?_declaring isName.1.symm, nearest?_declaring isName.2.symm]
          exact ih named around
      | block before | function declaration before | method declaration before =>
          exact beyond named.1 (ih named.2 around)
      | classBody inside =>
          cases around
          obtain ⟨name, superclass, methods⟩ := K
          cases superclass with
          | none => cases derived
          | some parent => exact ⟨0, rfl, rfl⟩

end Lox
