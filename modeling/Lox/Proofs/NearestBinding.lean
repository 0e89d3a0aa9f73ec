import Mathlib
import Lox.Proofs.Access
import Lox.Proofs.Store

/-!
# The nearest binding

A walk along the links of a frame stops at the first frame that binds the name. If that frame is `links`
links away, the walk is the access at that distance: both read the same value and leave the same store
(`Store.Nearest.get?`, `Store.Nearest.assign?`). A walk fails if no frame of the chain binds the name, an
access at a distance if the chain is too short, and then nothing changes.

A link of a store leads to an older frame, so links make no cycle (`Store.acyclic`). The frames of any heap
without cycles can be numbered so (`Store.exists_store`), so no such heap is left out.
-/

namespace Lox

namespace Store

/-! ## Heaps without cycles -/

theorem acyclic (s : Store) : WellFounded fun outer inner => s.enclosing? inner = some outer :=
  Subrelation.wf enclosing?_lt Nat.lt_wfRel.wf

section Heaps

variable {α : Type} {parent : α → Option α}

/-- The number of links from a frame to the outermost one around it. -/
noncomputable def depth (acyclic : WellFounded fun outer inner => parent inner = some outer) : α → Nat :=
  acyclic.fix fun inner depth =>
    match link : parent inner with
    | some outer => depth outer link + 1
    | none => 0

theorem depth_lt (acyclic : WellFounded fun outer inner => parent inner = some outer) {inner outer : α}
    (link : parent inner = some outer) : depth acyclic outer < depth acyclic inner := by
  conv_rhs => rw [depth, acyclic.fix_eq]
  split
  · rename_i other link'
    cases link.symm.trans link'
    exact Nat.lt_succ_self _
  · rename_i missing
    cases link.symm.trans missing

theorem exists_order [Finite α] (acyclic : WellFounded fun outer inner => parent inner = some outer) :
    ∃ (n : Nat) (place : α ≃ Fin n), ∀ inner outer, parent inner = some outer → place outer < place inner := by
  classical
  have := Fintype.ofFinite α
  let deeper (a b : α) : Prop := depth acyclic a ≤ depth acyclic b
  have : Std.Total deeper := ⟨fun a b => Nat.le_total _ _⟩
  have : IsTrans α deeper := ⟨fun _ _ _ => Nat.le_trans⟩
  let order := (Finset.univ : Finset α).toList.insertionSort deeper
  have perm : order.Perm (Finset.univ : Finset α).toList := List.perm_insertionSort _ _
  have sorted : order.Pairwise deeper := List.pairwise_insertionSort _ _
  have nodup : order.Nodup := perm.nodup_iff.mpr (Finset.nodup_toList _)
  have full : ∀ a, a ∈ order := fun a => perm.mem_iff.mpr (Finset.mem_toList.mpr (Finset.mem_univ a))
  let place := (nodup.getEquivOfForallMemList order full).symm
  refine ⟨order.length, place, fun inner outer link => lt_of_not_ge fun later => ?_⟩
  have at_place (a : α) : order.get (place a) = a := (nodup.getEquivOfForallMemList order full).apply_symm_apply a
  have apart : place inner ≠ place outer := by
    intro same
    have looped := depth_lt acyclic link
    rw [place.injective same] at looped
    exact Nat.lt_irrefl _ looped
  have ordered := List.pairwise_iff_get.mp sorted _ _ (lt_of_le_of_ne later apart)
  rw [at_place, at_place] at ordered
  exact Nat.lt_irrefl _ (Nat.lt_of_lt_of_le (depth_lt acyclic link) ordered)

/-- The frames of a finite heap without cycles can be numbered so that they make a store. -/
theorem exists_store [Finite α] (contents : α → Bindings String Value)
    (acyclic : WellFounded fun outer inner => parent inner = some outer) :
    ∃ (s : Store) (place : α → FrameId), Function.Injective place ∧
      (∀ frame, frame < s.frames.size ↔ ∃ a, place a = frame) ∧
      ∀ a, s.frames[place a]? = some ⟨contents a, (parent a).map place⟩ ∧
        s.enclosing? (place a) = (parent a).map place := by
  obtain ⟨n, place, older⟩ := exists_order acyclic
  let place' (a : α) : FrameId := (place a).val
  let frame (i : Fin n) : Frame := ⟨contents (place.symm i), (parent (place.symm i)).map place'⟩
  let s : Store := ⟨.ofFn frame, #[], 0⟩
  have size : s.frames.size = n := Array.size_ofFn
  have here (a : α) : s.frames[place' a]? = some ⟨contents a, (parent a).map place'⟩ := by
    have inside : place' a < s.frames.size := size.symm ▸ (place a).isLt
    have at_place : s.frames[place' a] = frame (place a) := Array.getElem_ofFn inside
    rw [Array.getElem?_eq_getElem inside, at_place]
    simp only [frame, Equiv.symm_apply_apply]
  refine ⟨s, place', Fin.val_injective.comp place.injective, fun f => ?_, fun a => ⟨here a, ?_⟩⟩
  · rw [size]
    constructor
    · exact fun inside => ⟨place.symm ⟨f, inside⟩, by simp only [place', Equiv.apply_symm_apply]⟩
    · rintro ⟨a, rfl⟩
      exact (place a).isLt
  · rw [enclosing?, here a]
    cases link : parent a with
    | none => rfl
    | some outer => exact if_pos (older a outer link)

end Heaps

/-! ## Chains -/

variable {s : Store} {frame holder outer : FrameId} {name : String} {links : Nat} {value : Value}

theorem ancestor?_add (s : Store) (frame : FrameId) (m n : Nat) :
    s.ancestor? frame (m + n) = (s.ancestor? frame m).bind fun outer => s.ancestor? outer n := by
  induction m generalizing frame with
  | zero => rw [Nat.zero_add]; rfl
  | succ m ih =>
      rw [Nat.add_right_comm, ancestor?, ancestor?]
      cases s.enclosing? frame with
      | none => rfl
      | some outer => exact ih outer

/-- Of the frames on the way out, this is the first one that binds the name. -/
structure Nearest (s : Store) (frame : FrameId) (name : String) (links : Nat) (holder : FrameId) : Prop where
  reached : s.ancestor? frame links = some holder
  bound : (s.read? holder name).isSome
  nearer : ∀ n < links, ∀ inner, s.ancestor? frame n = some inner → s.read? inner name = none

/-- No frame of the chain binds the name. -/
def Unbound (s : Store) (frame : FrameId) (name : String) : Prop :=
  ∀ n inner, s.ancestor? frame n = some inner → s.read? inner name = none

theorem Nearest.binder? (nearest : s.Nearest frame name links holder) : s.binder? name frame = some holder := by
  induction links generalizing frame with
  | zero =>
      cases nearest.reached
      exact binder?_of_bound nearest.bound
  | succ links ih =>
      have reached := nearest.reached
      rw [ancestor?] at reached
      split at reached
      · rename_i outer link
        rw [binder?_of_unbound (nearest.nearer 0 (Nat.zero_lt_succ _) frame rfl) link]
        refine ih ⟨reached, nearest.bound, fun n less inner reaches => ?_⟩
        exact nearest.nearer (n + 1) (Nat.succ_lt_succ less) inner ((ancestor?_succ link n).trans reaches)
      · cases reached

theorem Unbound.binder? (unbound : s.Unbound frame name) : s.binder? name frame = none := by
  induction frame using Nat.strongRecOn with
  | _ frame ih =>
      have here : s.read? frame name = none := unbound 0 frame rfl
      cases link : s.enclosing? frame with
      | none => exact binder?_of_outermost here link
      | some outer =>
          rw [binder?_of_unbound here link]
          exact ih outer (enclosing?_lt link) fun n inner reaches =>
            unbound (n + 1) inner ((ancestor?_succ link n).trans reaches)

theorem nearest_or_unbound (s : Store) (frame : FrameId) (name : String) :
    (∃ links holder, s.Nearest frame name links holder) ∨ s.Unbound frame name := by
  classical
  by_cases some : ∃ links holder, s.ancestor? frame links = some holder ∧ (s.read? holder name).isSome
  · obtain ⟨holder, reached, bound⟩ := Nat.find_spec some
    refine .inl ⟨Nat.find some, holder, reached, bound, fun n less inner reaches => ?_⟩
    have missing := Nat.find_min some less
    rw [← Option.not_isSome_iff_eq_none]
    exact fun bound' => missing ⟨inner, reaches, bound'⟩
  · refine .inr fun n inner reaches => ?_
    rw [← Option.not_isSome_iff_eq_none]
    exact fun bound => some ⟨n, inner, reaches, bound⟩

/-! ## Reading and writing -/

/-- One binding has another value, and nothing else is different. -/
structure Overwrites (s : Store) (holder : FrameId) (name : String) (value : Value) (s' : Store) : Prop where
  written : s'.read? holder name = some value
  kept : ∀ frame key, ¬(frame = holder ∧ key = name) → s'.read? frame key = s.read? frame key
  links : ∀ frame, s'.enclosing? frame = s.enclosing? frame
  size : s'.frames.size = s.frames.size
  fields : s'.fields = s.fields
  identities : s'.identities = s.identities

theorem overwrites_define (bound : (s.read? holder name).isSome) :
    s.Overwrites holder name value (s.define holder name value) where
  written := by
    obtain ⟨_, found⟩ := Option.isSome_iff_exists.mp bound
    exact read?_define_self (older_of_read found)
  kept _ _ different := read?_define_of_ne different
  links _ := enclosing?_define
  size := size_define
  fields := rfl
  identities := rfl

theorem Overwrites.ancestor? {s' : Store} (overwrites : s.Overwrites holder name value s') (frame : FrameId)
    (links : Nat) : s'.ancestor? frame links = s.ancestor? frame links := by
  induction links generalizing frame with
  | zero => rfl
  | succ links ih =>
      rw [Store.ancestor?, Store.ancestor?, overwrites.links]
      cases s.enclosing? frame with
      | none => rfl
      | some outer => exact ih outer

theorem Overwrites.nearest_iff {s' : Store} (overwrites : s.Overwrites holder name value s')
    (bound : (s.read? holder name).isSome) (frame : FrameId) (links : Nat) :
    s'.Nearest frame name links holder ↔ s.Nearest frame name links holder := by
  have isSome (other : FrameId) : (s'.read? other name).isSome = (s.read? other name).isSome := by
    by_cases same : other = holder
    · subst same
      rw [overwrites.written, bound]
      rfl
    · rw [overwrites.kept other name fun both => same both.1]
  have unbound (other : FrameId) : s'.read? other name = none ↔ s.read? other name = none := by
    rw [← Option.not_isSome_iff_eq_none, isSome, Option.not_isSome_iff_eq_none]
  constructor
  · rintro ⟨reached, bound', nearer⟩
    refine ⟨overwrites.ancestor? frame links ▸ reached, bound, fun n less inner reaches => ?_⟩
    exact (unbound inner).mp (nearer n less inner ((overwrites.ancestor? frame n).trans reaches))
  · rintro ⟨reached, -, nearer⟩
    refine ⟨(overwrites.ancestor? frame links).trans reached, (isSome holder).trans bound,
      fun n less inner reaches => ?_⟩
    exact (unbound inner).mpr (nearer n less inner ((overwrites.ancestor? frame n).symm.trans reaches))

theorem Nearest.get? (nearest : s.Nearest frame name links holder) : s.get? frame name = s.read? holder name := by
  rw [Store.get?, nearest.binder?]

theorem Nearest.getAt? (nearest : s.Nearest frame name links holder) :
    s.getAt? frame links name = s.read? holder name :=
  getAt?_of_ancestor nearest.reached

theorem Nearest.assign? (nearest : s.Nearest frame name links holder) (value : Value) :
    s.assign? frame name value = some (s.define holder name value) := by
  rw [Store.assign?, nearest.binder?]

theorem Nearest.assignAt? (nearest : s.Nearest frame name links holder) (value : Value) :
    s.assignAt? frame links name value = some (s.define holder name value) := by
  rw [Store.assignAt?, nearest.reached]

end Store

/-! ## References of a run -/

section References

variable {m : Machine} {r : Reference} {links : Nat} {holder : FrameId} {value : Value}

/-- The name of the reference means no variable, and nothing has changed. -/
def undefined {α : Type} (r : Reference) (m : Machine) : EStateM.Result Stop Machine α :=
  .error (.runtime ⟨.undefinedVariable r.name, r.token.line⟩) m

theorem bySearch_of_unbound (unbound : m.store.Unbound m.current r.name) :
    Access.bySearch.read r m = undefined r m ∧ Access.bySearch.write r value m = undefined r m := by
  simp only [Access.bySearch, Store.get?, Store.assign?, unbound.binder?]
  exact ⟨rfl, rfl⟩

theorem globals_of_unbound (entry : m.distances.find? r.id = none)
    (unbound : m.store.Unbound Store.globals r.name) :
    lookUp r m = undefined r m ∧ assign r value m = undefined r m := by
  simp only [lookUp, assign, Store.get?, entry, unbound.binder?]
  exact ⟨rfl, rfl⟩

theorem beyond_chain (entry : m.distances.find? r.id = some links)
    (beyond : m.store.ancestor? m.current links = none) :
    lookUp r m = undefined r m ∧ assign r value m = undefined r m := by
  simp only [lookUp, assign, Store.getAt?, entry, beyond]
  exact ⟨rfl, rfl⟩

theorem bySearch_of_nearest (entry : m.distances.find? r.id = some links)
    (nearest : m.store.Nearest m.current r.name links holder) :
    Access.bySearch.read r m = lookUp r m ∧ Access.bySearch.write r value m = assign r value m := by
  constructor
  · obtain ⟨v, bound⟩ := Option.isSome_iff_exists.mp nearest.bound
    simp only [Access.bySearch, lookUp, entry, nearest.get?, nearest.getAt?, bound]
  · simp only [Access.bySearch, assign, entry, nearest.assign?, nearest.reached]
    rfl

end References

/--
If the nearest frame that binds a name is some links away, then the walk from a frame and the access at that
distance read the same value and leave the same store, in which the name has the new value from everywhere
from where it leads to that frame, and all else is as it was. If no frame of the chain binds the name, the
walk fails, and an access beyond the end of the chain fails too; a run ends there with the error of the name,
and nothing has changed. To go on from an ancestor is to go all the way at once.
-/
theorem walk_eq_distance (s : Store) (frame : FrameId) (name : String) (value : Value) :
    (∀ links holder, s.Nearest frame name links holder →
      (s.get? frame name).isSome ∧ s.get? frame name = s.getAt? frame links name ∧
      ∃ s', s.assign? frame name value = some s' ∧ s.assignAt? frame links name value = some s' ∧
        s.Overwrites holder name value s' ∧ ∀ frame' links',
          (s'.Nearest frame' name links' holder ↔ s.Nearest frame' name links' holder) ∧
          (s.Nearest frame' name links' holder → s'.get? frame' name = some value)) ∧
    (s.Unbound frame name → s.get? frame name = none ∧ s.assign? frame name value = none) ∧
    ((∃ links holder, s.Nearest frame name links holder) ∨ s.Unbound frame name) ∧
    (∀ k n, s.ancestor? frame (k + n) = (s.ancestor? frame k).bind fun outer => s.ancestor? outer n) ∧
    (∀ links, s.ancestor? frame links = none →
      s.getAt? frame links name = none ∧ s.assignAt? frame links name value = none) ∧
    ∀ (m : Machine) (r : Reference), m.store = s → r.name = name →
      (m.current = frame → s.Unbound frame name →
        Access.bySearch.read r m = undefined r m ∧ Access.bySearch.write r value m = undefined r m) ∧
      (m.distances.find? r.id = none → s.Unbound Store.globals name →
        lookUp r m = undefined r m ∧ assign r value m = undefined r m) ∧
      ∀ links, m.current = frame → m.distances.find? r.id = some links →
        (∀ holder, s.Nearest frame name links holder →
          Access.bySearch.read r m = lookUp r m ∧ Access.bySearch.write r value m = assign r value m) ∧
        (s.ancestor? frame links = none → lookUp r m = undefined r m ∧ assign r value m = undefined r m) := by
  refine ⟨fun links holder nearest => ?_, fun unbound => ?_,
    s.nearest_or_unbound frame name, s.ancestor?_add frame, fun links beyond => ?_, fun m r here called => ?_⟩
  · have overwrites : s.Overwrites holder name value (s.define holder name value) :=
      Store.overwrites_define nearest.bound
    refine ⟨?_, ?_, _, nearest.assign? value, nearest.assignAt? value, overwrites, fun frame' links' => ?_⟩
    · rw [nearest.get?]
      exact nearest.bound
    · rw [nearest.get?, nearest.getAt?]
    · have alike := overwrites.nearest_iff nearest.bound frame' links'
      refine ⟨alike, fun nearest' => ?_⟩
      rw [(alike.mpr nearest').get?, overwrites.written]
  · rw [Store.get?, Store.assign?, unbound.binder?]
    exact ⟨rfl, rfl⟩
  · rw [Store.getAt?, Store.assignAt?, beyond]
    exact ⟨rfl, rfl⟩
  · subst here called
    refine ⟨?_, globals_of_unbound, ?_⟩
    · rintro rfl
      exact bySearch_of_unbound
    · rintro links rfl entry
      exact ⟨fun holder => bySearch_of_nearest entry, beyond_chain entry⟩

/-- Two frames in one that binds a name of the globals again. -/
def forked : Store :=
  let (inner, s) := Store.initial.newFrame (some Store.globals)
  let (_, s) := (s.define inner "clock" .nil).newFrame (some inner)
  (s.newFrame (some inner)).2

theorem nearest_clock (frame : FrameId) (link : forked.enclosing? frame = some 1)
    (missing : forked.read? frame "clock" = none) : forked.Nearest frame "clock" 1 1 where
  reached := Store.ancestor?_succ link 0
  bound := by decide
  nearer n less inner reaches := by
    obtain rfl : n = 0 := Nat.lt_one_iff.mp less
    cases reaches
    exact missing

/-- What is written from one of the frames is read from the other one, but not from the globals. -/
theorem clock_written : forked.Nearest 2 "clock" 1 1 ∧
    ∃ s, forked.assign? 2 "clock" (.number 1) = some s ∧ s.get? 3 "clock" = some (.number 1) ∧
      s.read? Store.globals "clock" = some (.native .clock) := by
  have nearest := nearest_clock 2 rfl rfl
  obtain ⟨-, -, s, assigned, -, overwrites, reads⟩ := (walk_eq_distance forked 2 "clock" (.number 1)).1 1 1 nearest
  refine ⟨nearest, s, assigned, (reads 3 1).2 (nearest_clock 3 rfl rfl), ?_⟩
  rw [overwrites.kept _ _ (by decide)]
  rfl

end Lox
