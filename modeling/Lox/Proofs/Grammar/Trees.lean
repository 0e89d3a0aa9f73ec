import Lox.Proofs.Grammar

/-!
# The trees of the grammar

What holds of every tree that the grammar derives: its references are numbered in the order of their
tokens (`Declarations.inOrder`), so that no two of them have the same number
(`Declarations.numbered`), and the branches of a conditional and the body of a loop are no
declarations (`Declarations.plain`). If the tokens are spelled as their kinds demand, names are not
reserved words, and `this` and `super` are spelled so (`Declarations.wellFormed`).
-/

namespace Lox

/-! ## Members of lists -/

section Members

variable {α β : Type} {a : α} {as : List α}

theorem subset_of_mem {each : α → List β} {all : List α → List β}
    (cons : ∀ first rest, all (first :: rest) = each first ++ all rest) (mem : a ∈ as) : each a ⊆ all as := by
  induction as with
  | nil => cases mem
  | cons first rest ih =>
      rw [cons]
      rcases List.mem_cons.mp mem with rfl | mem
      · exact List.subset_append_left _ _
      · exact List.Subset.trans (ih mem) (List.subset_append_right _ _)

theorem holds_of_mem {each : α → Prop} {all : List α → Prop}
    (cons : ∀ first rest, all (first :: rest) → each first ∧ all rest) (holds : all as) (mem : a ∈ as) : each a := by
  induction as with
  | nil => cases mem
  | cons first rest ih =>
      obtain ⟨here, others⟩ := cons first rest holds
      rcases List.mem_cons.mp mem with rfl | mem
      · exact here
      · exact ih others mem

end Members

/-! ## References -/

mutual

def Expr.references : Expr → List Reference
  | .literal _ => []
  | .grouping inner => inner.references
  | .unary _ right => right.references
  | .binary left _ right => left.references ++ right.references
  | .logical left _ right => left.references ++ right.references
  | .read name => [name]
  | .assign name value => value.references ++ [name]
  | .call callee _ arguments => callee.references ++ Expr.referencesAll arguments
  | .get object _ => object.references
  | .set object _ value => object.references ++ value.references
  | .self keyword => [keyword]
  | .inherited keyword _ => [keyword]

def Expr.referencesAll : List Expr → List Reference
  | [] => []
  | first :: rest => first.references ++ Expr.referencesAll rest

end

def Expr.references? : Option Expr → List Reference
  | some value => value.references
  | none => []

mutual

def Stmt.references : Stmt → List Reference
  | .expression value => value.references
  | .print value => value.references
  | .varDecl _ initializer => Expr.references? initializer
  | .block body => Stmt.referencesAll body
  | .ifElse condition thenBranch none => condition.references ++ thenBranch.references
  | .ifElse condition thenBranch (some elseBranch) =>
    condition.references ++ (thenBranch.references ++ elseBranch.references)
  | .whileLoop condition body => condition.references ++ body.references
  | .funDecl declaration => declaration.references
  | .returnStmt _ value => Expr.references? value
  | .classDecl _ superclass methods => superclass.toList ++ FunctionDecl.referencesAll methods

def Stmt.referencesAll : List Stmt → List Reference
  | [] => []
  | first :: rest => first.references ++ Stmt.referencesAll rest

def FunctionDecl.references : FunctionDecl → List Reference
  | ⟨_, _, body⟩ => Stmt.referencesAll body

def FunctionDecl.referencesAll : List FunctionDecl → List Reference
  | [] => []
  | first :: rest => first.references ++ FunctionDecl.referencesAll rest

end

theorem Expr.references_subset {es : List Expr} {e : Expr} (mem : e ∈ es) : e.references ⊆ Expr.referencesAll es :=
  subset_of_mem (fun _ _ => by rw [Expr.referencesAll]) mem

theorem Stmt.references_subset {body : List Stmt} {a : Stmt} (mem : a ∈ body) :
    a.references ⊆ Stmt.referencesAll body :=
  subset_of_mem (fun _ _ => by rw [Stmt.referencesAll]) mem

theorem FunctionDecl.references_subset {methods : List FunctionDecl} {d : FunctionDecl} (mem : d ∈ methods) :
    d.references ⊆ FunctionDecl.referencesAll methods :=
  subset_of_mem (fun _ _ => by rw [FunctionDecl.referencesAll]) mem

/-! ## Well-formed trees -/

def IsName (text : String) : Prop := text ≠ "this" ∧ text ≠ "super"

def Stmt.isDeclaration : Stmt → Bool
  | .varDecl .. | .funDecl .. | .classDecl .. => true
  | _ => false

def Stmt.declared? : Stmt → Option String
  | .varDecl name _ => some name.lexeme
  | .funDecl declaration => some declaration.name.lexeme
  | .classDecl name .. => some name.lexeme
  | _ => none

mutual

def Expr.WellFormed : Expr → Prop
  | .literal _ => True
  | .grouping inner => inner.WellFormed
  | .unary _ right => right.WellFormed
  | .binary left _ right => left.WellFormed ∧ right.WellFormed
  | .logical left _ right => left.WellFormed ∧ right.WellFormed
  | .read name => IsName name.name
  | .assign name value => value.WellFormed ∧ IsName name.name
  | .call callee _ arguments => callee.WellFormed ∧ Expr.WellFormedAll arguments
  | .get object _ => object.WellFormed
  | .set object _ value => object.WellFormed ∧ value.WellFormed
  | .self keyword => keyword.name = "this"
  | .inherited keyword _ => keyword.name = "super"

def Expr.WellFormedAll : List Expr → Prop
  | [] => True
  | first :: rest => first.WellFormed ∧ Expr.WellFormedAll rest

end

def Expr.WellFormed? : Option Expr → Prop
  | some value => value.WellFormed
  | none => True

mutual

def Stmt.WellFormed : Stmt → Prop
  | .expression value => value.WellFormed
  | .print value => value.WellFormed
  | .varDecl name initializer => IsName name.lexeme ∧ Expr.WellFormed? initializer
  | .block body => Stmt.WellFormedAll body
  | .ifElse condition thenBranch none =>
    condition.WellFormed ∧ thenBranch.WellFormed ∧ thenBranch.isDeclaration = false
  | .ifElse condition thenBranch (some elseBranch) =>
    condition.WellFormed ∧ thenBranch.WellFormed ∧ thenBranch.isDeclaration = false ∧
    elseBranch.WellFormed ∧
      elseBranch.isDeclaration = false
  | .whileLoop condition body => condition.WellFormed ∧ body.WellFormed ∧ body.isDeclaration = false
  | .funDecl declaration => declaration.WellFormed
  | .returnStmt _ value => Expr.WellFormed? value
  | .classDecl name superclass methods =>
    IsName name.lexeme ∧ (∀ parent ∈ superclass, IsName parent.name) ∧
    FunctionDecl.WellFormedAll methods

def Stmt.WellFormedAll : List Stmt → Prop
  | [] => True
  | first :: rest => first.WellFormed ∧ Stmt.WellFormedAll rest

def FunctionDecl.WellFormed : FunctionDecl → Prop
  | ⟨name, params, body⟩ => IsName name.lexeme ∧ (∀ param ∈ params, IsName param.lexeme) ∧
    Stmt.WellFormedAll body

def FunctionDecl.WellFormedAll : List FunctionDecl → Prop
  | [] => True
  | first :: rest => first.WellFormed ∧ FunctionDecl.WellFormedAll rest

end

theorem Expr.WellFormedAll.of_mem {es : List Expr} {e : Expr} (formed : Expr.WellFormedAll es) (mem : e ∈ es) :
    e.WellFormed :=
  holds_of_mem (fun _ _ => by simp only [Expr.WellFormedAll, imp_self]) formed mem

theorem FunctionDecl.WellFormedAll.of_mem {methods : List FunctionDecl} {d : FunctionDecl}
    (formed : FunctionDecl.WellFormedAll methods) (mem : d ∈ methods) : d.WellFormed :=
  holds_of_mem (fun _ _ => by simp only [FunctionDecl.WellFormedAll, imp_self]) formed mem

theorem FunctionDecl.WellFormed.params {d : FunctionDecl} (formed : d.WellFormed) :
    ∀ param ∈ d.params, IsName param.lexeme := by
  obtain ⟨name, params, body⟩ := d
  rw [FunctionDecl.WellFormed] at formed
  exact formed.2.1

mutual

/-- Branches of conditionals and bodies of loops are no declarations. -/
def Stmt.Plain : Stmt → Prop
  | .block body => Stmt.PlainAll body
  | .ifElse _ thenBranch none => thenBranch.Plain ∧ thenBranch.isDeclaration = false
  | .ifElse _ thenBranch (some elseBranch) =>
    thenBranch.Plain ∧ thenBranch.isDeclaration = false ∧ elseBranch.Plain ∧
      elseBranch.isDeclaration = false
  | .whileLoop _ body => body.Plain ∧ body.isDeclaration = false
  | .funDecl declaration => declaration.Plain
  | .classDecl _ _ methods => FunctionDecl.PlainAll methods
  | .expression _ | .print _ | .varDecl _ _ | .returnStmt _ _ => True

def Stmt.PlainAll : List Stmt → Prop
  | [] => True
  | first :: rest => first.Plain ∧ Stmt.PlainAll rest

def FunctionDecl.Plain : FunctionDecl → Prop
  | ⟨_, _, body⟩ => Stmt.PlainAll body

def FunctionDecl.PlainAll : List FunctionDecl → Prop
  | [] => True
  | first :: rest => first.Plain ∧ FunctionDecl.PlainAll rest

end

mutual

theorem Stmt.WellFormed.plain : ∀ {a : Stmt}, a.WellFormed → a.Plain
  | .expression _, _ | .print _, _ | .varDecl _ _, _ | .returnStmt _ _, _ => by
      rw [Stmt.Plain]
      trivial
  | .block _, formed => by
      rw [Stmt.WellFormed] at formed
      rw [Stmt.Plain]
      exact Stmt.WellFormedAll.plain formed
  | .ifElse _ _ none, formed => by
      rw [Stmt.WellFormed] at formed
      rw [Stmt.Plain]
      exact ⟨formed.2.1.plain, formed.2.2⟩
  | .ifElse _ _ (some _), formed => by
      rw [Stmt.WellFormed] at formed
      obtain ⟨-, thenFormed, thenPlain, elseFormed, elsePlain⟩ := formed
      rw [Stmt.Plain]
      exact ⟨thenFormed.plain, thenPlain, elseFormed.plain, elsePlain⟩
  | .whileLoop _ _, formed => by
      rw [Stmt.WellFormed] at formed
      rw [Stmt.Plain]
      exact ⟨formed.2.1.plain, formed.2.2⟩
  | .funDecl _, formed => by
      rw [Stmt.WellFormed] at formed
      rw [Stmt.Plain]
      exact formed.plain
  | .classDecl _ _ _, formed => by
      rw [Stmt.WellFormed] at formed
      rw [Stmt.Plain]
      exact FunctionDecl.WellFormedAll.plain formed.2.2

theorem Stmt.WellFormedAll.plain : ∀ {body : List Stmt}, Stmt.WellFormedAll body → Stmt.PlainAll body
  | [], _ => by
      rw [Stmt.PlainAll]
      trivial
  | _ :: _, formed => by
      rw [Stmt.WellFormedAll] at formed
      rw [Stmt.PlainAll]
      exact ⟨formed.1.plain, Stmt.WellFormedAll.plain formed.2⟩

theorem FunctionDecl.WellFormed.plain : ∀ {f : FunctionDecl}, f.WellFormed → f.Plain
  | ⟨_, _, _⟩, formed => by
      rw [FunctionDecl.WellFormed] at formed
      rw [FunctionDecl.Plain]
      exact Stmt.WellFormedAll.plain formed.2.2

theorem FunctionDecl.WellFormedAll.plain :
    ∀ {fs : List FunctionDecl}, FunctionDecl.WellFormedAll fs → FunctionDecl.PlainAll fs
  | [], _ => by
      rw [FunctionDecl.PlainAll]
      trivial
  | _ :: _, formed => by
      rw [FunctionDecl.WellFormedAll] at formed
      rw [FunctionDecl.PlainAll]
      exact ⟨formed.1.plain, FunctionDecl.WellFormedAll.plain formed.2⟩

end

def Token.Spelled (t : Token) : Prop :=
  match t.kind with
  | .symbol symbol => t.lexeme = symbol.spelling
  | .identifier => Symbol.ofWord? t.lexeme = none
  | _ => True

theorem Token.Spelled.isName {t : Token} (spelled : t.Spelled) (kind : t.kind = .identifier) :
    IsName t.lexeme := by
  simp only [Spelled, kind] at spelled
  constructor <;> rintro same <;> rw [same] at spelled <;> revert spelled <;> decide

theorem Token.Spelled.lexeme {t : Token} {symbol : Symbol} (spelled : t.Spelled)
    (kind : t.kind = .symbol symbol) :
    t.lexeme = symbol.spelling := by
  simpa only [Spelled, kind] using spelled

namespace Grammar

/-! ## Numbers -/

/-- As many numbers as there are from `n` on and below `n'`, no two of them the same. -/
structure Numbered (n : Nat) (references : List Reference) (n' : Nat) : Prop where
  count : n' = n + references.length
  within : ∀ r ∈ references, n ≤ r.id ∧ r.id < n'
  distinct : (references.map Reference.id).Nodup

/-- The references with these numbers in turn, and with tokens that stand one behind the other in the list. -/
structure Listed (ts : List Token) (n : Nat) (rs : List Reference) (n' : Nat) : Prop where
  count : n' = n + rs.length
  ids : rs.map Reference.id = List.range' n rs.length
  tokens : (rs.map Reference.token).Sublist ts

/-- The references can be put in the order of their tokens, and then their numbers are in turn. -/
def InOrder (ts : List Token) (n : Nat) (references : List Reference) (n' : Nat) : Prop :=
  ∃ rs, rs.Perm references ∧ Listed ts n rs n'

namespace InOrder

variable {ts us : List Token} {n n' n'' : Nat} {rs rs' : List Reference}

theorem nil : InOrder ts n [] n :=
  ⟨[], .refl [], rfl, rfl, List.nil_sublist ts⟩

theorem one {token : Token} : InOrder [token] n [⟨n, token⟩] (n + 1) :=
  ⟨[⟨n, token⟩], .refl _, rfl, rfl, .refl _⟩

theorem within (inOrder : InOrder ts n rs n') (stands : ts.Sublist us) : InOrder us n rs n' := by
  obtain ⟨sorted, perm, count, ids, tokens⟩ := inOrder
  exact ⟨sorted, perm, count, ids, tokens.trans stands⟩

theorem cons (token : Token) (inOrder : InOrder ts n rs n') : InOrder (token :: ts) n rs n' :=
  inOrder.within (List.sublist_cons_self token ts)

theorem before (more : List Token) (inOrder : InOrder ts n rs n') : InOrder (ts ++ more) n rs n' :=
  inOrder.within (List.sublist_append_left ts more)

theorem behind (more : List Token) (inOrder : InOrder ts n rs n') : InOrder (more ++ ts) n rs n' :=
  inOrder.within (List.sublist_append_right more ts)

theorem append (first : InOrder ts n rs n') (second : InOrder us n' rs' n'') :
    InOrder (ts ++ us) n (rs ++ rs') n'' := by
  obtain ⟨sorted, perm, count, ids, tokens⟩ := first
  obtain ⟨sorted', perm', count', ids', tokens'⟩ := second
  refine ⟨sorted ++ sorted', perm.append perm', ?_, ?_, ?_⟩
  · rw [List.length_append]
    omega
  · rw [List.map_append, ids, ids', count, List.length_append, List.range'_append_1]
  · rw [List.map_append]
    exact tokens.append tokens'

theorem perm (inOrder : InOrder ts n rs n') (perm : rs.Perm rs') : InOrder ts n rs' n' := by
  obtain ⟨sorted, same, listed⟩ := inOrder
  exact ⟨sorted, same.trans perm, listed⟩

theorem numbered (inOrder : InOrder ts n rs n') : Numbered n rs n' := by
  obtain ⟨sorted, perm, count, ids, -⟩ := inOrder
  have same := perm.map Reference.id
  rw [ids] at same
  constructor
  · rw [count, perm.length_eq]
  · intro r mem
    have listed := same.mem_iff.mpr (List.mem_map_of_mem mem)
    rw [List.mem_range'_1] at listed
    omega
  · exact same.nodup_iff.mp List.nodup_range'

end InOrder

theorem references_build (p : Precedence) (l : Expr) (operator : Token) (r : Expr) :
    (p.build l operator r).references = l.references ++ r.references := by
  cases p <;> simp [Precedence.build, Expr.references]

mutual

theorem Derives.inOrder {nonterminal : Nonterminal} {ts : List Token} {n n' : Nat} {e : Expr} :
    Derives nonterminal ts n e n' → InOrder ts n e.references n'
  | .assignName _ _ value => by
      rw [Expr.references]
      exact (InOrder.one.append (value.inOrder.cons _)).perm List.perm_append_comm
  | .assignField object _ _ _ value => by
      rw [Expr.references]
      exact object.inOrder.append (((value.inOrder.cons _).cons _).cons _)
  | .operation derived => derived.inOrder
  | .operate left _ _ right => by
      rw [references_build]
      exact left.inOrder.append (right.inOrder.cons _)
  | .operand derived => derived.inOrder
  | .sign _ _ right => by
      rw [Expr.references]
      exact right.inOrder.cons _
  | .unsigned derived => derived.inOrder
  | .callEmpty callee .. => by
      rw [Expr.references, Expr.referencesAll, List.append_nil]
      exact callee.inOrder.before _
  | .call callee _ listed .. => by
      rw [Expr.references]
      exact callee.inOrder.append ((listed.inOrder.before _).cons _)
  | .get object .. => by
      rw [Expr.references]
      exact object.inOrder.before _
  | .primary derived => derived.inOrder
  | .constant _ => by
      rw [Expr.references]
      exact .nil
  | .name _ | .self _ => by
      rw [Expr.references]
      exact .one
  | .inherited .. => by
      rw [Expr.references]
      exact InOrder.one.before _
  | .grouping _ inner _ => by
      rw [Expr.references]
      exact (inner.inOrder.before _).cons _

theorem Arguments.inOrder {ts : List Token} {n n' : Nat} {es : List Expr} :
    Arguments ts n es n' → InOrder ts n (Expr.referencesAll es) n'
  | .one derived => by
      rw [Expr.referencesAll, Expr.referencesAll, List.append_nil]
      exact derived.inOrder
  | .more first _ others => by
      rw [Expr.referencesAll]
      exact first.inOrder.append (others.inOrder.cons _)

end

theorem Initializer.inOrder {ts : List Token} {n n' : Nat} {e : Expr} :
    Initializer ts n e n' → InOrder ts n e.references n'
  | .mk _ derived => derived.inOrder.cons _

theorem Optional.inOrder {phrase : Phrase Expr} {ts : List Token} {n n' : Nat} {e : Option Expr}
    (each : ∀ {ts n e n'}, phrase ts n e n' → InOrder ts n e.references n') :
    Optional phrase ts n e n' → InOrder ts n (Expr.references? e) n'
  | .absent => .nil
  | .present derived => each derived

theorem VarDeclaration.inOrder {ts : List Token} {n n' : Nat} {s : Stmt} :
    VarDeclaration ts n s n' → InOrder ts n s.references n'
  | .mk _ _ value _ => by
      rw [Stmt.references]
      exact (((value.inOrder Initializer.inOrder).before _).cons _).cons _

theorem ExpressionStatement.inOrder {ts : List Token} {n n' : Nat} {s : Stmt} :
    ExpressionStatement ts n s n' → InOrder ts n s.references n'
  | .mk derived _ => by
      rw [Stmt.references]
      exact derived.inOrder.before _

def initializerReferences : Option Stmt → List Reference
  | some first => first.references
  | none => []

theorem LoopInitializer.inOrder {ts : List Token} {n n' : Nat} {s : Option Stmt} :
    LoopInitializer ts n s n' → InOrder ts n (initializerReferences s) n'
  | .absent _ => .nil
  | .variable derived => derived.inOrder
  | .expression derived => derived.inOrder

/-- The increment stands before the body in the text of a loop and behind it in the tree. -/
theorem references_loopTree (initializer : Option Stmt) (condition increment : Option Expr)
    (body : Stmt) :
    (initializerReferences initializer ++ (Expr.references? condition ++
      (Expr.references? increment ++ body.references))).Perm
      (loopTree initializer condition increment body).references := by
  have round :
      (Expr.references? increment ++ body.references).Perm
        (withIncrement body increment).references := by
    cases increment with
    | none => exact .refl _
    | some step =>
        simp only [withIncrement, Stmt.references, Stmt.referencesAll, List.append_nil]
        exact List.perm_append_comm
  have loop : (Expr.references? condition ++ (Expr.references? increment ++ body.references)).Perm
      (Stmt.whileLoop (condition.getD (.literal (.boolean true)))
        (withIncrement body increment)).references := by
    rw [Stmt.references]
    cases condition with
    | none => exact round
    | some condition => exact round.append_left _
  cases initializer with
  | none => exact loop
  | some first =>
      simp only [loopTree, withInitializer, Stmt.references, Stmt.referencesAll, List.append_nil]
      rw [Stmt.references] at loop
      exact loop.append_left _

theorem Superclass.inOrder {ts : List Token} {n n' : Nat} {superclass : Option Reference}
    (derived : Optional Superclass ts n superclass n') : InOrder ts n superclass.toList n' := by
  cases derived with
  | absent => exact .nil
  | present derived =>
      cases derived
      exact InOrder.one.cons _

mutual

theorem Declaration.inOrder {ts : List Token} {n n' : Nat} {s : Stmt} :
    Declaration ts n s n' → InOrder ts n s.references n'
  | .classDecl _ _ parent _ members _ => by
      rw [Stmt.references]
      exact (((Superclass.inOrder parent).append ((members.inOrder.before _).cons _)).cons _).cons _
  | .funDecl _ derived => by
      rw [Stmt.references]
      exact derived.inOrder.cons _
  | .varDecl derived => derived.inOrder
  | .statement derived => derived.inOrder

theorem Declarations.inOrder {ts : List Token} {n n' : Nat} {ss : List Stmt} :
    Declarations ts n ss n' → InOrder ts n (Stmt.referencesAll ss) n'
  | .nil => .nil
  | .cons first others => by
      rw [Stmt.referencesAll]
      exact first.inOrder.append others.inOrder

theorem Function.inOrder {ts : List Token} {n n' : Nat} {f : FunctionDecl} :
    Function ts n f n' → InOrder ts n f.references n'
  | .mk _ _ _ _ _ body _ => by
      rw [FunctionDecl.references]
      exact (((((body.inOrder.before _).cons _).cons _).behind _).cons _).cons _

theorem Functions.inOrder {ts : List Token} {n n' : Nat} {fs : List FunctionDecl} :
    Functions ts n fs n' → InOrder ts n (FunctionDecl.referencesAll fs) n'
  | .nil => .nil
  | .cons first others => by
      rw [FunctionDecl.referencesAll]
      exact first.inOrder.append others.inOrder

theorem Statement.inOrder {d : Bool} {ts : List Token} {n n' : Nat} {s : Stmt} :
    Statement d ts n s n' → InOrder ts n s.references n'
  | .expression derived => derived.inOrder
  | .print _ derived _ => by
      rw [Stmt.references]
      exact (derived.inOrder.before _).cons _
  | .returnStmt _ value _ => by
      rw [Stmt.references]
      exact ((value.inOrder Derives.inOrder).before _).cons _
  | .block _ body _ => by
      rw [Stmt.references]
      exact (body.inOrder.before _).cons _
  | .ifThen _ _ condition _ branch => by
      rw [Stmt.references]
      exact ((condition.inOrder.append (branch.inOrder.cons _)).cons _).cons _
  | .ifElse _ _ condition _ branch _ other => by
      rw [Stmt.references]
      exact ((condition.inOrder.append ((branch.inOrder.append (other.inOrder.cons _)).cons _)).cons _).cons _
  | .whileLoop _ _ condition _ body => by
      rw [Stmt.references]
      exact ((condition.inOrder.append (body.inOrder.cons _)).cons _).cons _
  | .forLoop _ _ first second _ third _ body => by
      have second := second.inOrder Derives.inOrder
      have third := third.inOrder Derives.inOrder
      apply InOrder.perm _ (references_loopTree _ _ _ _)
      exact ((first.inOrder.append (second.append ((third.append (body.inOrder.cons _)).cons _))).cons _).cons _

end

theorem Declarations.numbered {ts : List Token} {n n' : Nat} {ss : List Stmt}
    (derived : Declarations ts n ss n') : Numbered n (Stmt.referencesAll ss) n' :=
  derived.inOrder.numbered

/-! ## Spelling -/

def Spelled (ts : List Token) : Prop := ∀ t ∈ ts, t.Spelled

theorem spelled_append {ts us : List Token} : Spelled (ts ++ us) ↔ Spelled ts ∧ Spelled us :=
  List.forall_mem_append

theorem spelled_cons {t : Token} {ts : List Token} : Spelled (t :: ts) ↔ t.Spelled ∧ Spelled ts :=
  List.forall_mem_cons

theorem wellFormed_build (p : Precedence) (l : Expr) (operator : Token) (r : Expr) :
    (p.build l operator r).WellFormed ↔ l.WellFormed ∧ r.WellFormed := by
  cases p <;> simp [Precedence.build, Expr.WellFormed]

mutual

theorem Derives.wellFormed {nonterminal : Nonterminal} {ts : List Token} {n n' : Nat} {e : Expr} :
    Derives nonterminal ts n e n' → Spelled ts → e.WellFormed
  | .assignName kind _ value, spelled => by
      simp only [spelled_cons] at spelled
      rw [Expr.WellFormed]
      exact ⟨value.wellFormed spelled.2.2, spelled.1.isName kind⟩
  | .assignField object _ _ _ value, spelled => by
      simp only [spelled_append, spelled_cons] at spelled
      rw [Expr.WellFormed]
      exact ⟨object.wellFormed spelled.1, value.wellFormed spelled.2.2.2.2⟩
  | .operation derived, spelled => derived.wellFormed spelled
  | .operate left _ _ right, spelled => by
      simp only [spelled_append, spelled_cons] at spelled
      rw [wellFormed_build]
      exact ⟨left.wellFormed spelled.1, right.wellFormed spelled.2.2⟩
  | .operand derived, spelled => derived.wellFormed spelled
  | .sign _ _ right, spelled => by
      rw [Expr.WellFormed]
      exact right.wellFormed (spelled_cons.mp spelled).2
  | .unsigned derived, spelled => derived.wellFormed spelled
  | .callEmpty callee .., spelled => by
      rw [Expr.WellFormed, Expr.WellFormedAll]
      exact ⟨callee.wellFormed (spelled_append.mp spelled).1, trivial⟩
  | .call callee _ listed .., spelled => by
      simp only [spelled_append, spelled_cons] at spelled
      rw [Expr.WellFormed]
      exact ⟨callee.wellFormed spelled.1, listed.wellFormed spelled.2.2.1⟩
  | .get object .., spelled => by
      rw [Expr.WellFormed]
      exact object.wellFormed (spelled_append.mp spelled).1
  | .primary derived, spelled => derived.wellFormed spelled
  | .constant _, _ => by
      rw [Expr.WellFormed]
      trivial
  | .name kind, spelled => by
      rw [Expr.WellFormed]
      exact (spelled_cons.mp spelled).1.isName kind
  | .self kind, spelled => by
      rw [Expr.WellFormed]
      exact (spelled_cons.mp spelled).1.lexeme kind
  | .inherited kind .., spelled => by
      rw [Expr.WellFormed]
      exact (spelled_cons.mp spelled).1.lexeme kind
  | .grouping _ inner _, spelled => by
      simp only [spelled_cons, spelled_append] at spelled
      rw [Expr.WellFormed]
      exact inner.wellFormed spelled.2.1

theorem Arguments.wellFormed {ts : List Token} {n n' : Nat} {es : List Expr} :
    Arguments ts n es n' → Spelled ts → Expr.WellFormedAll es
  | .one derived, spelled => by
      rw [Expr.WellFormedAll, Expr.WellFormedAll]
      exact ⟨derived.wellFormed spelled, trivial⟩
  | .more first _ others, spelled => by
      simp only [spelled_append, spelled_cons] at spelled
      rw [Expr.WellFormedAll]
      exact ⟨first.wellFormed spelled.1, others.wellFormed spelled.2.2⟩

end

theorem Initializer.wellFormed {ts : List Token} {n n' : Nat} {e : Expr} :
    Initializer ts n e n' → Spelled ts → e.WellFormed
  | .mk _ derived, spelled => derived.wellFormed (spelled_cons.mp spelled).2

theorem Optional.wellFormed {phrase : Phrase Expr} {ts : List Token} {n n' : Nat} {e : Option Expr}
    (each : ∀ {ts n e n'}, phrase ts n e n' → Spelled ts → e.WellFormed) :
    Optional phrase ts n e n' → Spelled ts → Expr.WellFormed? e
  | .absent, _ => trivial
  | .present derived, spelled => each derived spelled

theorem VarDeclaration.wellFormed {ts : List Token} {n n' : Nat} {s : Stmt} :
    VarDeclaration ts n s n' → Spelled ts → s.WellFormed
  | .mk _ nameKind value _, spelled => by
      simp only [spelled_append, spelled_cons] at spelled
      rw [Stmt.WellFormed]
      exact ⟨spelled.2.1.isName nameKind, value.wellFormed Initializer.wellFormed spelled.2.2.1⟩

theorem ExpressionStatement.wellFormed {ts : List Token} {n n' : Nat} {s : Stmt} :
    ExpressionStatement ts n s n' → Spelled ts → s.WellFormed
  | .mk derived _, spelled => by
      rw [Stmt.WellFormed]
      exact derived.wellFormed (spelled_append.mp spelled).1

theorem LoopInitializer.wellFormed {ts : List Token} {n n' : Nat} {s : Option Stmt} :
    LoopInitializer ts n s n' → Spelled ts → ∀ first ∈ s, first.WellFormed
  | .absent _, _ => nofun
  | .variable derived, spelled => by
      rintro _ ⟨⟩
      exact derived.wellFormed spelled
  | .expression derived, spelled => by
      rintro _ ⟨⟩
      exact derived.wellFormed spelled

theorem wellFormed_loopTree {initializer : Option Stmt} {condition increment : Option Expr}
    {body : Stmt} (first : ∀ s ∈ initializer, s.WellFormed) (second : Expr.WellFormed? condition)
    (third : Expr.WellFormed? increment) (formed : body.WellFormed)
    (plain : body.isDeclaration = false) :
    (loopTree initializer condition increment body).WellFormed := by
  have round : (withIncrement body increment).WellFormed ∧
      (withIncrement body increment).isDeclaration = false := by
    cases increment with
    | none => exact ⟨formed, plain⟩
    | some step =>
        simp only [withIncrement, Stmt.WellFormed, Stmt.WellFormedAll]
        exact ⟨⟨formed, third, trivial⟩, rfl⟩
  have test : (condition.getD (.literal (.boolean true))).WellFormed := by
    cases condition with
    | none => simp [Expr.WellFormed]
    | some condition => exact second
  cases initializer with
  | none =>
      simp only [loopTree, withInitializer, Stmt.WellFormed]
      exact ⟨test, round⟩
  | some s =>
      simp only [loopTree, withInitializer, Stmt.WellFormed, Stmt.WellFormedAll]
      exact ⟨first s rfl, ⟨test, round⟩, trivial⟩

theorem isDeclaration_loopTree (initializer : Option Stmt) (condition increment : Option Expr)
    (body : Stmt) :
    (loopTree initializer condition increment body).isDeclaration = false := by
  cases initializer <;> rfl

theorem Statement.isDeclaration {d : Bool} {ts : List Token} {n n' : Nat} {s : Stmt}
    (derived : Statement d ts n s n') : s.isDeclaration = false := by
  cases derived with
  | expression derived =>
      cases derived
      rfl
  | forLoop => exact isDeclaration_loopTree _ _ _ _
  | _ => rfl

theorem Parameters.isName {ts params : List Token} :
    Parameters ts params → Spelled ts → ∀ param ∈ params, IsName param.lexeme
  | .one kind, spelled => by
      simp only [List.mem_singleton, forall_eq]
      exact (spelled_cons.mp spelled).1.isName kind
  | .more kind _ others, spelled => by
      simp only [spelled_cons] at spelled
      simp only [List.forall_mem_cons]
      exact ⟨spelled.1.isName kind, others.isName spelled.2.2⟩

theorem ParameterList.isName {ts params : List Token} :
    ParameterList ts params → Spelled ts → ∀ param ∈ params, IsName param.lexeme
  | .empty, _ => nofun
  | .names listed _, spelled => listed.isName spelled

theorem Superclass.isName {ts : List Token} {n n' : Nat} {superclass : Option Reference}
    (derived : Optional Superclass ts n superclass n') (spelled : Spelled ts) :
    ∀ parent ∈ superclass, IsName parent.name := by
  cases derived with
  | absent => nofun
  | present derived =>
      obtain ⟨lessKind, kind⟩ := derived
      rintro _ ⟨⟩
      simp only [spelled_cons] at spelled
      exact spelled.2.1.isName kind

mutual

theorem Declaration.wellFormed {ts : List Token} {n n' : Nat} {s : Stmt} :
    Declaration ts n s n' → Spelled ts → s.WellFormed
  | .classDecl _ nameKind parent _ members _, spelled => by
      simp only [spelled_cons, spelled_append] at spelled
      rw [Stmt.WellFormed]
      exact ⟨spelled.2.1.isName nameKind, Superclass.isName parent spelled.2.2.1,
        members.wellFormed spelled.2.2.2.2.1⟩
  | .funDecl _ derived, spelled => by
      rw [Stmt.WellFormed]
      exact derived.wellFormed (spelled_cons.mp spelled).2
  | .varDecl derived, spelled => derived.wellFormed spelled
  | .statement derived, spelled => derived.wellFormed spelled

theorem Declarations.wellFormed {ts : List Token} {n n' : Nat} {ss : List Stmt} :
    Declarations ts n ss n' → Spelled ts → Stmt.WellFormedAll ss
  | .nil, _ => by
      rw [Stmt.WellFormedAll]
      trivial
  | .cons first others, spelled => by
      rw [spelled_append] at spelled
      rw [Stmt.WellFormedAll]
      exact ⟨first.wellFormed spelled.1, others.wellFormed spelled.2⟩

theorem Function.wellFormed {ts : List Token} {n n' : Nat} {f : FunctionDecl} :
    Function ts n f n' → Spelled ts → f.WellFormed
  | .mk nameKind _ params _ _ body _, spelled => by
      simp only [spelled_cons, spelled_append] at spelled
      rw [FunctionDecl.WellFormed]
      exact ⟨spelled.1.isName nameKind, params.isName spelled.2.2.1,
        body.wellFormed spelled.2.2.2.2.2.1⟩

theorem Functions.wellFormed {ts : List Token} {n n' : Nat} {fs : List FunctionDecl} :
    Functions ts n fs n' → Spelled ts → FunctionDecl.WellFormedAll fs
  | .nil, _ => by
      rw [FunctionDecl.WellFormedAll]
      trivial
  | .cons first others, spelled => by
      rw [spelled_append] at spelled
      rw [FunctionDecl.WellFormedAll]
      exact ⟨first.wellFormed spelled.1, others.wellFormed spelled.2⟩

theorem Statement.wellFormed {d : Bool} {ts : List Token} {n n' : Nat} {s : Stmt} :
    Statement d ts n s n' → Spelled ts → s.WellFormed
  | .expression derived, spelled => derived.wellFormed spelled
  | .print _ derived _, spelled => by
      simp only [spelled_cons, spelled_append] at spelled
      rw [Stmt.WellFormed]
      exact derived.wellFormed spelled.2.1
  | .returnStmt _ value _, spelled => by
      simp only [spelled_cons, spelled_append] at spelled
      rw [Stmt.WellFormed]
      exact value.wellFormed Derives.wellFormed spelled.2.1
  | .block _ body _, spelled => by
      simp only [spelled_cons, spelled_append] at spelled
      rw [Stmt.WellFormed]
      exact body.wellFormed spelled.2.1
  | .ifThen _ _ condition _ branch, spelled => by
      simp only [spelled_cons, spelled_append] at spelled
      rw [Stmt.WellFormed]
      exact ⟨condition.wellFormed spelled.2.2.1, branch.wellFormed spelled.2.2.2.2,
        branch.isDeclaration⟩
  | .ifElse _ _ condition _ branch _ other, spelled => by
      simp only [spelled_cons, spelled_append] at spelled
      obtain ⟨-, -, inCondition, -, inBranch, -, inOther⟩ := spelled
      rw [Stmt.WellFormed]
      exact ⟨condition.wellFormed inCondition, branch.wellFormed inBranch, branch.isDeclaration,
        other.wellFormed inOther, other.isDeclaration⟩
  | .whileLoop _ _ condition _ body, spelled => by
      simp only [spelled_cons, spelled_append] at spelled
      rw [Stmt.WellFormed]
      exact ⟨condition.wellFormed spelled.2.2.1, body.wellFormed spelled.2.2.2.2, body.isDeclaration⟩
  | .forLoop _ _ first second _ third _ body, spelled => by
      simp only [spelled_cons, spelled_append] at spelled
      obtain ⟨-, -, inFirst, inSecond, -, inThird, -, inBody⟩ := spelled
      exact wellFormed_loopTree (first.wellFormed inFirst)
        (second.wellFormed Derives.wellFormed inSecond)
        (third.wellFormed Derives.wellFormed inThird) (body.wellFormed inBody) body.isDeclaration

end

/-! ## Branches and bodies -/

theorem VarDeclaration.plain {ts : List Token} {n n' : Nat} {s : Stmt} :
    VarDeclaration ts n s n' → s.Plain
  | .mk .. => by
      rw [Stmt.Plain]
      trivial

theorem ExpressionStatement.plain {ts : List Token} {n n' : Nat} {s : Stmt} :
    ExpressionStatement ts n s n' → s.Plain
  | .mk .. => by
      rw [Stmt.Plain]
      trivial

theorem LoopInitializer.plain {ts : List Token} {n n' : Nat} {s : Option Stmt} :
    LoopInitializer ts n s n' → ∀ first ∈ s, first.Plain
  | .absent _ => nofun
  | .variable derived => by
      rintro _ ⟨⟩
      exact derived.plain
  | .expression derived => by
      rintro _ ⟨⟩
      exact derived.plain

theorem plain_loopTree {initializer : Option Stmt} {condition increment : Option Expr} {body : Stmt}
    (first : ∀ s ∈ initializer, s.Plain) (plain : body.Plain) (branch : body.isDeclaration = false) :
    (loopTree initializer condition increment body).Plain := by
  have round : (withIncrement body increment).Plain ∧
      (withIncrement body increment).isDeclaration = false := by
    cases increment with
    | none => exact ⟨plain, branch⟩
    | some step =>
        simp only [withIncrement, Stmt.Plain, Stmt.PlainAll]
        exact ⟨⟨plain, trivial, trivial⟩, rfl⟩
  cases initializer with
  | none =>
      simp only [loopTree, withInitializer, Stmt.Plain]
      exact round
  | some s =>
      simp only [loopTree, withInitializer, Stmt.Plain, Stmt.PlainAll]
      exact ⟨first s rfl, round, trivial⟩

mutual

theorem Declaration.plain {ts : List Token} {n n' : Nat} {s : Stmt} :
    Declaration ts n s n' → s.Plain
  | .classDecl _ _ _ _ members _ => by
      rw [Stmt.Plain]
      exact members.plain
  | .funDecl _ derived => by
      rw [Stmt.Plain]
      exact derived.plain
  | .varDecl derived => derived.plain
  | .statement derived => derived.plain

theorem Declarations.plain {ts : List Token} {n n' : Nat} {ss : List Stmt} :
    Declarations ts n ss n' → Stmt.PlainAll ss
  | .nil => by
      rw [Stmt.PlainAll]
      trivial
  | .cons first others => by
      rw [Stmt.PlainAll]
      exact ⟨first.plain, others.plain⟩

theorem Function.plain {ts : List Token} {n n' : Nat} {f : FunctionDecl} :
    Function ts n f n' → f.Plain
  | .mk _ _ _ _ _ body _ => by
      rw [FunctionDecl.Plain]
      exact body.plain

theorem Functions.plain {ts : List Token} {n n' : Nat} {fs : List FunctionDecl} :
    Functions ts n fs n' → FunctionDecl.PlainAll fs
  | .nil => by
      rw [FunctionDecl.PlainAll]
      trivial
  | .cons first others => by
      rw [FunctionDecl.PlainAll]
      exact ⟨first.plain, others.plain⟩

theorem Statement.plain {d : Bool} {ts : List Token} {n n' : Nat} {s : Stmt} :
    Statement d ts n s n' → s.Plain
  | .expression derived => derived.plain
  | .print .. | .returnStmt .. => by
      rw [Stmt.Plain]
      trivial
  | .block _ body _ => by
      rw [Stmt.Plain]
      exact body.plain
  | .ifThen _ _ _ _ branch => by
      rw [Stmt.Plain]
      exact ⟨branch.plain, branch.isDeclaration⟩
  | .ifElse _ _ _ _ branch _ other => by
      rw [Stmt.Plain]
      exact ⟨branch.plain, branch.isDeclaration, other.plain, other.isDeclaration⟩
  | .whileLoop _ _ _ _ body => by
      rw [Stmt.Plain]
      exact ⟨body.plain, body.isDeclaration⟩
  | .forLoop _ _ first _ _ _ _ body => plain_loopTree first.plain body.plain body.isDeclaration

end

theorem Program.numbered {ts : List Token} {ss : List Stmt} :
    Program ts ss → ∃ n, Numbered 0 (Stmt.referencesAll ss) n
  | .mk derived _ => ⟨_, derived.numbered⟩

theorem Program.wellFormed {ts : List Token} {ss : List Stmt} :
    Program ts ss → Spelled ts → Stmt.WellFormedAll ss
  | .mk derived _, spelled => derived.wellFormed (spelled_append.mp spelled).1

end Grammar

end Lox
