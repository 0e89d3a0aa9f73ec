import Mathlib
import Lox.Proofs.Provenance.Trees
import Lox.Proofs.Sequence
import Lox.Proofs.Store
import Lox.Proofs.Upkeep

/-!
# Errors of a run are at tokens of its program

A function keeps its declaration, wherever it is called later. So what a run has to remember of tokens is in its
functions, those in variables and fields and those that are methods of classes (`KnownStore`). Each action
leaves only functions whose tokens are known, and stops only at the line of a known token (`Carries`).
-/

namespace Lox.Provenance
open Run

variable {source : List Token}

/-! ## Values -/

def KnownClass (source : List Token) (c : Class) : Prop :=
  ∀ name method, c.findMethod? name = some method → cited method.declaration ⊆ source

/-- The functions in a value are declared with tokens of the source. -/
def Known (source : List Token) : Value → Prop
  | .function _ closure => cited closure.declaration ⊆ source
  | .ofClass c => KnownClass source c
  | .ofInstance i => KnownClass source i.type
  | _ => True

def KnownFlow (source : List Token) : Flow → Prop
  | .normal => True
  | .returned v => Known source v

def KnownStore (source : List Token) (s : Store) : Prop := ∀ v, s.Holds v → Known source v

theorem known_of_plain {v : Value} (plain : Plain v) : Known source v := by
  cases v with
  | function _ _ | ofClass _ | ofInstance _ => exact plain.elim
  | _ => trivial

/-- The line that an early end speaks of is that of a token of the source. -/
def Blames (source : List Token) : Stop → Prop
  | .runtime error => ∃ t ∈ source, t.line = error.line
  | .defect (.unresolvedSuper line) => ∃ t ∈ source, t.line = line
  | _ => True

inductive Carried {α : Type} (source : List Token) (post : α → Prop) : EStateM.Result Stop Machine α → Prop where
  | done {a : α} {m : Machine} (store : KnownStore source m.store) (holds : post a) : Carried source post (.ok a m)
  | stopped {stop : Stop} {m : Machine} (blames : Blames source stop) : Carried source post (.error stop m)

def Carries {α : Type} (source : List Token) (post : α → Prop) (x : Run α) : Prop :=
  ∀ m, KnownStore source m.store → Carried source post (x m)

variable {α β : Type} {post : α → Prop} {next : β → Prop}

theorem Carried.bind_ok {x : Run α} {f : α → Run β} {m : Machine} (first : Carried source post (x m))
    (rest : ∀ a m', x m = .ok a m' → KnownStore source m'.store → post a → Carried source next (f a m')) :
    Carried source next ((x >>= f) m) := by
  cases ended : x m with
  | ok a m' =>
      rw [ended] at first
      rw [bind_of ended]
      cases first with
      | done store holds => exact rest a m' ended store holds
  | error stop m' =>
      rw [ended] at first
      rw [bind_of_error ended]
      cases first with
      | stopped blames => exact .stopped blames

theorem Carried.within {frame : FrameId} {x : Run α} {m : Machine}
    (inside : Carried source post (x { m with current := frame })) : Carried source post (Run.within frame x m) := by
  unfold Run.within
  cases ended : x { m with current := frame } with
  | ok a m' =>
      rw [ended] at inside
      cases inside with
      | done store holds => exact .done store holds
  | error stop m' =>
      rw [ended] at inside
      cases inside with
      | stopped blames => exact .stopped blames

namespace Carries

theorem pure {a : α} (holds : post a) : Carries source post (Pure.pure a : Run α) :=
  fun _ store => .done store holds

theorem raise {cause : RuntimeError.Cause} {token : Token} (known : token ∈ source) :
    Carries source post (Run.raise cause token : Run α) :=
  fun _ _ => .stopped ⟨token, known, rfl⟩

theorem bind {x : Run α} {f : α → Run β} (first : Carries source post x)
    (rest : ∀ a, post a → Carries source next (f a)) : Carries source next (x >>= f) :=
  fun m store => (first m store).bind_ok fun a m' _ store' holds => rest a holds m' store'

theorem get {f : Machine → Run α} (rest : ∀ m, KnownStore source m.store → Carries source post (f m)) :
    Carries source post (MonadState.get >>= f) :=
  fun m store => rest m store m store

theorem current {f : FrameId → Run α} (rest : ∀ frame, Carries source post (f frame)) :
    Carries source post (Run.current >>= f) :=
  fun m store => rest m.current m store

end Carries

section Actions

variable {frame outer : FrameId} {name : String} {v : Value}

theorem define_carries (known : Known source v) : Carries source (fun _ => True) (define frame name v) := by
  refine fun m store => .done (fun w held => ?_) trivial
  rcases held.of_define with old | rfl
  · exact store w old
  · exact known

theorem newFrame_carries {post : FrameId → Prop} (holds : ∀ frame, post frame) :
    Carries source post (newFrame outer) :=
  fun _ store => .done (fun v held => store v held.of_newFrame) (holds _)

theorem newIdentity_carries : Carries source (fun _ => True) newIdentity :=
  fun _ store => .done store trivial

theorem newInstance_carries {type : Class} (methods : KnownClass source type) :
    Carries source (fun made => Known source (.ofInstance made)) (newInstance type) := by
  refine fun m store => .done (fun v held => ?_) methods
  have made : (m.store.newInstance type).2.Holds v := held
  exact store v made.of_newInstance

theorem setField_carries {i : Instance} (known : Known source v) :
    Carries source (fun _ => True) (setField i name v) := by
  refine fun m store => .done (fun w held => ?_) trivial
  rcases held.of_setField with old | rfl
  · exact store w old
  · exact known

theorem emit_carries (text : String) : Carries source (fun _ => True) (emit text) := by
  intro m store
  unfold emit
  obtain ⟨failed, sink⟩ := m.sink.write text
  cases failed with
  | none => exact .done store trivial
  | some error => exact .stopped trivial

theorem bindMethod_carries {method : Closure} {i : Instance} (declared : cited method.declaration ⊆ source)
    (this : Known source (.ofInstance i)) :
    Carries source (fun bound => ∀ identity, Known source (.function identity bound)) (bindMethod method i) :=
  .bind (newFrame_carries fun _ => trivial) fun _ _ => .bind (define_carries this) fun _ _ => .pure fun _ => declared

end Actions

/-! ## All actions -/

instance : Citing Site where
  cited
    | .expr e => cited e
    | .stmt a => cited a

@[simp] theorem cited_expr (e : Expr) : cited (Site.expr e) = cited e := rfl

@[simp] theorem cited_stmt (a : Stmt) : cited (Site.stmt a) = cited a := rfl

theorem cited_part {part site : Site} (of : part.Part site) : cited part ⊆ cited site := by
  intro token here
  cases of with
  | argument mem =>
      have given := cited_subset_of_mem mem here
      simp [given]
  | _ => simp_all

theorem culprit_mem_cited {e : Expr} {token : Token} (culprit : e.culprit? = some token) : token ∈ cited e := by
  cases e <;> cases culprit <;> simp

theorem cited_statement {body : List Stmt} {a : Stmt} (given : cited (Stmt.block body) ⊆ source) (mem : a ∈ body) :
    cited a ⊆ source := by
  rw [cited_block] at given
  exact List.Subset.trans (cited_subset_of_mem mem) given

theorem cited_body {declaration : FunctionDecl} (declared : cited declaration ⊆ source) :
    cited (Stmt.block declaration.body) ⊆ source := by
  simp only [cited_function, List.cons_append, List.cons_subset, List.append_subset] at declared
  rw [cited_block]
  exact declared.2.2

/-- Runs of parts of the source know its tokens. -/
def upkeep (source : List Token) : Upkeep where
  Sound m := KnownStore source m.store
  Good _ := Known source
  Binds _ _ _ := True
  Shown site _ _ := cited site ⊆ source
  Passed site _ := cited site ⊆ source
  Allowed := Blames source
  After _ m' := KnownStore source m'.store
  Relates m post _ y := Carried source (post (leaves y m).store) (y m)
  refl := id
  sound_after := id
  sound_within _ := id
  good_after _ := id
  binds_after _ := id
  shown_after _ := id
  shown_current _ := id
  plain := known_of_plain
  type := id
  field store _ bound := store _ (.inr ⟨_, _, bound⟩)
  this store _ bound := store _ (.inl ⟨_, _, bound⟩)
  starving := trivial
  failing given culprit here _ := ⟨_, given (culprit_mem_cited culprit), here.symm⟩
  unmade declared _ _ := ⟨_, declared (by simp [cited_function]), rfl⟩
  pure := .done
  stop _ := .stopped
  get _ := id
  bind first rest := by
    refine first.bind_ok fun a m' ended store holds => ?_
    rw [leaves, ended] at holds
    rw [leaves_bind ended]
    exact rest a m' store holds
  within inside := .within (by rwa [leaves_within])
  define store _ known := define_carries known _ store
  newIdentity store := newIdentity_carries _ store
  newInstance store methods := newInstance_carries methods _ store
  setField store _ known := setField_carries known _ store
  emit text store := emit_carries text _ store
  bindMethod store methods found this := bindMethod_carries (methods _ _ found) this _ store
  block store given := newFrame_carries (fun _ _ => cited_statement given) _ store
  body store declared :=
    newFrame_carries (fun _ => ⟨fun _ _ => trivial, fun _ => cited_statement (cited_body declared)⟩) _ store
  part of given := List.Subset.trans (cited_part of) given
  varDecl _ _ := trivial

/-! ## Statements in sequence -/

def Evaluates (source : List Token) (evaluate : Expr → Run Value) : Prop :=
  ∀ e, cited e ⊆ source → Carries source (Known source) (evaluate e)

def Executes (source : List Token) (execute : Stmt → Run Flow) : Prop :=
  ∀ a, cited a ⊆ source → Carries source (KnownFlow source) (execute a)

section Parts

variable {evaluate : Expr → Run Value} {execute : Stmt → Run Flow}

theorem Evaluates.upkeep (evaluates : Evaluates source evaluate) : (upkeep source).Evaluates evaluate evaluate :=
  fun e m store given => evaluates e given m store

theorem Executes.upkeep (executes : Executes source execute) : (upkeep source).Executes execute execute :=
  fun a m store given => executes a given m store

end Parts

end Lox.Provenance
