import Lox.Proofs.Breakpoints
import Lox.Proofs.Finish
import Lox.Proofs.Fuel

/-!
# Output that is cut short

A run whose sink takes `n` bytes is the run with an unlimited sink up to the first byte that does not
fit. There it ends (`output_cut_short`).
-/

namespace Lox
open Run

/-! ## Limits -/

/-- Takes `n` bytes. After that writing fails, unless nothing is written. -/
def Sink.upTo (n : Nat) : Sink := ⟨.empty, some n, false⟩

def Machine.upTo (n : Nat) (m : Machine) : Machine := { m with sink := { m.sink with limit := some n } }

/-- The sink is unlimited, and what it holds fits into `n` bytes. -/
structure Roomy (n : Nat) (m : Machine) : Prop where
  limit : m.sink.limit = none
  fits : m.sink.held.size ≤ n

variable {n : Nat} {m m' : Machine} {α β : Type}

theorem upTo_inj (unlimited : m.sink.limit = none) (unlimited' : m'.sink.limit = none) :
    m.upTo n = m'.upTo n ↔ m = m' := by
  constructor
  · intro same
    obtain ⟨store, current, distances, ⟨held, limit, flushFails⟩, clock⟩ := m
    obtain ⟨store', current', distances', ⟨held', limit', flushFails'⟩, clock'⟩ := m'
    cases unlimited
    cases unlimited'
    cases same
    rfl
  · exact congrArg _

theorem extract_of_le {bytes : ByteArray} (fits : bytes.size ≤ n) : bytes.extract 0 n = bytes := by
  ext1
  simp [fits]

theorem Extends.extract (written : Extends m m') (full : n ≤ m.sink.held.size) :
    m'.sink.held.extract 0 n = m.sink.held.extract 0 n := by
  obtain ⟨more, same⟩ := written
  have nothing : more.extract (0 - m.sink.held.size) (n - m.sink.held.size) = .empty := by
    rw [Nat.sub_eq_zero_of_le full, ByteArray.extract_eq_empty_iff]
    exact Nat.zero_le _
  rw [same, ByteArray.extract_append, nothing, ByteArray.append_empty]

theorem Extends.size_le (written : Extends m m') : m.sink.held.size ≤ m'.sink.held.size := by
  obtain ⟨more, same⟩ := written
  rw [same, ByteArray.size_append]
  exact Nat.le_add_right _ _

/-! ## Writing -/

namespace Sink

def extended (s : Sink) (text : String) : Sink := { s with held := s.held ++ text.toUTF8 }

variable {s : Sink} {text : String}

theorem write_unlimited (unlimited : s.limit = none) : s.write text = (none, s.extended text) := by
  rw [write, fitting, extended, unlimited]
  exact Prod.ext (if_neg (Nat.lt_irrefl _)) rfl

theorem write_fitting (limited : s.limit = some n) (fits : text.toUTF8.size ≤ n - s.held.size) :
    s.write text = (none, s.extended text) := by
  rw [write, fitting, extended, limited]
  simp only [extract_of_le fits]
  exact Prod.ext (if_neg (Nat.lt_irrefl _)) rfl

theorem write_full (limited : s.limit = some n) (full : n - s.held.size < text.toUTF8.size) :
    s.write text =
      (some .sinkFull, { s with held := s.held ++ text.toUTF8.extract 0 (n - s.held.size) }) := by
  rw [write, fitting, limited]
  refine Prod.ext (if_pos ?_) rfl
  rw [ByteArray.size_extract]
  omega

end Sink

/-! ## Actions that are cut short -/

/--
From a machine with room the two actions end alike and leave room, or the first one writes too much and
the second one fails with the bytes that fit.
-/
inductive CutAt (n : Nat) (x y : Run α) (m : Machine) : Prop where
  | ok (a : α) (after : Machine) (room : Roomy n after) (free : x m = .ok a after)
    (cut : y (m.upTo n) = .ok a (after.upTo n))
  | error (stop : Stop) (after : Machine) (room : Roomy n after) (free : x m = .error stop after)
    (cut : y (m.upTo n) = .error stop (after.upTo n))
  | full (after : Machine) (size : n < (leaves x m).sink.held.size)
    (cut : y (m.upTo n) = .error (.output .sinkFull) after)
    (held : after.sink.held = (leaves x m).sink.held.extract 0 n)

structure CutsShort (n : Nat) ⦃α : Type⦄ (x y : Run α) : Prop where
  extends' : Respects Extends x
  cut (m : Machine) (room : Roomy n m) : CutAt n x y m

namespace CutsShort

theorem of_ok {x : Run α} (extends' : Respects Extends x)
    (same : ∀ m, ∃ a after, x m = .ok a after ∧ x (m.upTo n) = .ok a (after.upTo n) ∧ after.sink = m.sink) :
    CutsShort n x x := by
  refine ⟨extends', fun m room => ?_⟩
  obtain ⟨a, after, free, cut, sink⟩ := same m
  exact .ok a after ⟨sink ▸ room.limit, sink ▸ room.fits⟩ free cut

theorem bind {x y : Run α} {f g : α → Run β} (first : CutsShort n x y) (rest : ∀ a, CutsShort n (f a) (g a)) :
    CutsShort n (x >>= f) (y >>= g) := by
  refine ⟨extends_passage.bind first.extends' fun a => (rest a).extends', fun m room => ?_⟩
  cases first.cut m room with
  | ok a after room free cut =>
      cases (rest a).cut after room with
      | ok b last room free' cut' =>
          exact .ok b last room ((bind_of free).trans free') ((bind_of cut).trans cut')
      | error stop last room free' cut' =>
          exact .error stop last room ((bind_of free).trans free') ((bind_of cut).trans cut')
      | full last size cut' held =>
          have left : leaves (x >>= f) m = leaves (f a) after := leaves_bind free
          exact .full last (left ▸ size) ((bind_of cut).trans cut') (left ▸ held)
  | error stop after room free cut => exact .error stop after room (bind_of_error free) (bind_of_error cut)
  | full after size cut held =>
      have later : Extends (leaves x m) (leaves (x >>= f) m) :=
        extends_passage.after (fun a => (rest a).extends') m
      exact .full after (Nat.lt_of_lt_of_le size later.size_le) (bind_of_error cut)
        (held.trans (later.extract (Nat.le_of_lt size)).symm)

theorem within (frame : FrameId) {x y : Run α} (inside : CutsShort n x y) :
    CutsShort n (Run.within frame x) (Run.within frame y) := by
  refine ⟨extends_passage.inside frame inside.extends', fun m room => ?_⟩
  have left := leaves_within frame x m
  cases inside.cut { m with current := frame } ⟨room.limit, room.fits⟩ with
  | ok a after room free cut =>
      have back : Roomy n { after with current := m.current } := ⟨room.limit, room.fits⟩
      have cut' := within_of (m := m.upTo n) cut
      exact .ok a _ back (within_of free) cut'
  | error stop after room free cut =>
      have back : Roomy n { after with current := m.current } := ⟨room.limit, room.fits⟩
      have cut' := within_of_error (m := m.upTo n) cut
      exact .error stop _ back (within_of_error free) cut'
  | full after size cut held => exact .full _ (left ▸ size) (within_of_error cut) (left ▸ held)

theorem emit (n : Nat) (text : String) : CutsShort n (Run.emit text) (Run.emit text) := by
  refine ⟨extends_passage.emit text, fun m room => ?_⟩
  have free : Run.emit text m = .ok () { m with sink := m.sink.extended text } := by
    rw [Run.emit, Sink.write_unlimited room.limit]
  have size : text.toUTF8.size ≤ n - m.sink.held.size ↔ (m.sink.held ++ text.toUTF8).size ≤ n := by
    rw [ByteArray.size_append]
    have := room.fits
    omega
  by_cases fits : text.toUTF8.size ≤ n - m.sink.held.size
  · have cut : Run.emit text (m.upTo n) = .ok () (Machine.upTo n { m with sink := m.sink.extended text }) := by
      rw [Run.emit, Sink.write_fitting (s := (m.upTo n).sink) rfl fits]
      rfl
    apply CutAt.ok () _ _ free cut
    exact ⟨room.limit, size.mp fits⟩
  · have left : (leaves (Run.emit text) m).sink.held = m.sink.held ++ text.toUTF8 := by
      rw [leaves, free]
      rfl
    have held : m.sink.held ++ text.toUTF8.extract 0 (n - m.sink.held.size) =
        (m.sink.held ++ text.toUTF8).extract 0 n := by
      rw [ByteArray.extract_append, extract_of_le room.fits, Nat.zero_sub]
    apply CutAt.full
    · rw [left]
      exact Nat.lt_of_not_le fun fits' => fits (size.mpr fits')
    · rw [Run.emit, Sink.write_full (s := (m.upTo n).sink) rfl (Nat.lt_of_not_le fits)]
    · rw [left]
      exact held

theorem lockstep (n : Nat) : Lockstep (CutsShort n) where
  stop stop := ⟨extends_passage.unchanged fun _ => rfl, fun m room => .error stop m room rfl rfl⟩
  look _ := .of_ok (extends_passage.unchanged fun _ => rfl) fun m => ⟨_, m, rfl, rfl, rfl⟩
  bind := bind
  within := within
  newFrame enclosing := .of_ok (extends_passage.newFrame enclosing) fun _ => ⟨_, _, rfl, rfl, rfl⟩
  define frame name value := .of_ok (extends_passage.define frame name value) fun _ => ⟨_, _, rfl, rfl, rfl⟩
  newIdentity := .of_ok extends_passage.newIdentity fun _ => ⟨_, _, rfl, rfl, rfl⟩
  newInstance type := .of_ok (extends_passage.newInstance type) fun _ => ⟨_, _, rfl, rfl, rfl⟩
  setField i name value := .of_ok (extends_passage.setField i name value) fun _ => ⟨_, _, rfl, rfl, rfl⟩
  emit := emit n

theorem notices {watch watch' : Watch} (agree : ∀ site m, Roomy n m → watch' site (m.upTo n) = watch site m)
    (site : Site) {x y : Run α} (short : CutsShort n x y) :
    CutsShort n (supervised watch site x) (supervised watch' site y) := by
  refine ⟨extends_passage.supervised watch site short.extends', fun m room => ?_⟩
  have said := agree site m room
  cases speaks : watch site m with
  | some stop =>
      exact .error stop m room (supervised_of_some speaks) (supervised_of_some (said.trans speaks))
  | none =>
      have free : supervised watch site x m = x m := supervised_of_none speaks
      have cut : supervised watch' site y (m.upTo n) = y (m.upTo n) := supervised_of_none (said.trans speaks)
      have left : leaves (supervised watch site x) m = leaves x m := by rw [leaves, free, leaves]
      cases short.cut m room with
      | ok a after room free' cut' => exact .ok a after room (free.trans free') (cut.trans cut')
      | error stop after room free' cut' => exact .error stop after room (free.trans free') (cut.trans cut')
      | full after size cut' held => exact .full after (left ▸ size) (cut.trans cut') (left ▸ held)

end CutsShort

/-! ## Programs -/

variable {program : List Stmt} {distances : Distances} {start : Machine} {site : Site} {fuel : Nat}

theorem program_cutsShort (fuel : Nat) {watch watch' : Watch}
    (agree : ∀ site m, Roomy n m → watch' site (m.upTo n) = watch site m) (body : List Stmt) :
    CutsShort n (executeAll (executeUnder watch fuel) body) (executeAll (executeUnder watch' fuel) body) := by
  have lockstep := CutsShort.lockstep n
  exact lockstep.executeAll (lockstep.under (CutsShort.notices agree) fuel).2 body

theorem interpret_cutAt (fuel : Nat) (program : List Stmt) (distances : Distances) (room : Roomy n m)
    (flushed : m.sink.flush = none) :
    CutAt n (interpret fuel program distances) (interpret fuel program distances) m := by
  have quiet : ∀ site m, Roomy n m → silent site (m.upTo n) = silent site m := fun _ _ _ => rfl
  have short := program_cutsShort fuel quiet program
  rw [executeUnder_silent] at short
  have kind := sameKind_passage.program fuel program
  cases short.cut { m with distances } ⟨room.limit, room.fits⟩ with
  | ok flow after room free cut =>
      have quiet : after.sink.flush = none := (kind.of_ok free).flush.trans flushed
      cases flow with
      | normal =>
          apply CutAt.ok () after room (interpret_of_normal quiet free)
          exact interpret_of_normal quiet cut
      | returned value =>
          apply CutAt.error (.defect .escapedReturn) after room (interpret_of_returned quiet free)
          exact interpret_of_returned quiet cut
  | error stop after room free cut =>
      have quiet : after.sink.flush = none := (kind.of_error free).flush.trans flushed
      apply CutAt.error stop after room (interpret_of_error quiet free)
      exact interpret_of_error quiet cut
  | full after size cut held =>
      have quiet : after.sink.flush = none := (kind.of_error cut).flush.trans flushed
      apply CutAt.full after
      · rwa [leaves_interpret]
      · exact interpret_of_error quiet cut
      · rwa [leaves_interpret]

/-! ## Sites -/

theorem breakpoint_upTo (unlimited : m.sink.limit = none) (site : Site) (stop : Stop) :
    ∀ here m₀, Roomy n m₀ →
      breakpoint site (m.upTo n) stop here (m₀.upTo n) = breakpoint site m stop here m₀ := by
  intro here m₀ room
  have same : (here = site ∧ m₀.upTo n = m.upTo n) ↔ (here = site ∧ m₀ = m) :=
    and_congr_right' (upTo_inj room.limit unlimited)
  unfold breakpoint
  by_cases arrived : here = site ∧ m₀ = m
  · rw [if_pos arrived, if_pos (same.mpr arrived)]
  · rw [if_neg arrived, if_neg (mt same.mp arrived)]

theorem Reaches.limit (reaches : Reaches fuel program distances start site m) :
    m.sink.limit = start.sink.limit :=
  (reaches.respects sameKind_passage).limit

/-- With the limit a run gets to the same sites as long as the output fits, and to no others. -/
theorem reaches_upTo (room : Roomy n start) :
    Reaches fuel program distances (start.upTo n) site m' ↔
      ∃ m, Reaches fuel program distances start site m ∧ m.sink.held.size ≤ n ∧ m' = m.upTo n := by
  have inside : Roomy n { start with distances } := ⟨room.limit, room.fits⟩
  constructor
  · intro reaches
    have limited : m'.sink.limit = some n := reaches.limit
    let m : Machine := { m' with sink := { m'.sink with limit := none } }
    have same : m' = m.upTo n := by
      obtain ⟨store, current, distances, ⟨held, limit, flushFails⟩, clock⟩ := m'
      cases limited
      rfl
    -- Two stops, neither of which is what a full sink gives.
    have stops (stop : Stop) (other : stop ≠ .output .sinkFull) : m.sink.held.size ≤ n ∧ ∃ m₁,
        executeAll (executeUnder (breakpoint site m stop) fuel) program { start with distances } =
          .error stop m₁ := by
      have stopped := reaches.stops stop
      rw [same] at stopped
      have short := program_cutsShort fuel (breakpoint_upTo (n := n) (m := m) rfl site stop) program
      cases short.cut _ inside with
      | ok a after room free cut => cases stopped.symm.trans cut
      | error stop' after room free cut =>
          injection stopped.symm.trans cut with ended machines
          have held : m.sink.held = after.sink.held := congrArg (fun m => m.sink.held) machines
          exact ⟨held ▸ room.fits, after, ended ▸ free⟩
      | full after size cut held =>
          cases stopped.symm.trans cut
          exact (other rfl).elim
    obtain ⟨fits, m₁, starved⟩ := stops .outOfFuel Stop.noConfusion
    obtain ⟨-, m₂, ended⟩ := stops (.defect .escapedReturn) Stop.noConfusion
    exact ⟨m, reaches_of_differing Stop.noConfusion starved ended, fits, same⟩
  · rintro ⟨m, reaches, fits, rfl⟩ stop
    have unlimited : m.sink.limit = none := reaches.limit.trans room.limit
    have short := program_cutsShort fuel (breakpoint_upTo (n := n) unlimited site stop) program
    have stopped := reaches.stops stop
    cases short.cut _ inside with
    | ok a after room free cut => cases stopped.symm.trans free
    | error stop' after room free cut =>
        cases stopped.symm.trans free
        exact ⟨_, cut⟩
    | full after size cut held =>
        rw [leaves, stopped] at size
        exact (Nat.not_le_of_lt size fits).elim

/-! ## Runs from source text -/

variable {source : String}

theorem run_prolongs {more : Nat} (checked : check source = .ok (program, distances)) (le : fuel ≤ more) :
    run more source m = run fuel source m ∨
      (run fuel source m).1 = .error (.stopped .outOfFuel) ∧
        Extends (run fuel source m).2 (run more source m).2 := by
  have goesOn : interpret more program distances m = interpret fuel program distances m ∨
      ∃ m₁, interpret fuel program distances m = .error .outOfFuel m₁ ∧
        Extends m₁ (leaves (interpret more program distances) m) := interpret_prolongs le
  rcases goesOn with same | ⟨m₁, starved, written⟩
  · left
    cases ended : interpret fuel program distances m with
    | ok _ after => rw [run_of_ok checked ended, run_of_ok checked (same.trans ended)]
    | error stop after => rw [run_of_error checked ended, run_of_error checked (same.trans ended)]
  · right
    rw [run_of_error checked starved, run_leaves checked]
    exact ⟨rfl, written⟩

/-- The run with the limit is the one without it, or that one writes too much. -/
theorem run_cut (checked : check source = .ok (program, distances)) (n fuel : Nat) (clock : Float) :
    let free := run fuel source (.initial .unlimited clock)
    let cut := run fuel source (.initial (.upTo n) clock)
    (free.2.sink.held.size ≤ n ∧ cut = (free.1, free.2.upTo n)) ∨
      n < free.2.sink.held.size ∧ cut.1 = .error (.stopped (.output .sinkFull)) ∧
        cut.2.sink.held = free.2.sink.held.extract 0 n := by
  intro free cut
  have left : free.2 = leaves (interpret fuel program distances) (.initial .unlimited clock) :=
    run_leaves checked
  have room : Roomy n (.initial .unlimited clock) := ⟨rfl, Nat.zero_le n⟩
  cases interpret_cutAt fuel program distances room rfl with
  | ok a after room ended ended' =>
      have free_eq : free = (.ok (), after) := run_of_ok checked ended
      have cut_eq : cut = (.ok (), after.upTo n) := run_of_ok checked ended'
      rw [free_eq]
      exact .inl ⟨room.fits, cut_eq⟩
  | error stop after room ended ended' =>
      have free_eq : free = (.error (.stopped stop), after) := run_of_error checked ended
      have cut_eq : cut = (.error (.stopped stop), after.upTo n) := run_of_error checked ended'
      rw [free_eq]
      exact .inl ⟨room.fits, cut_eq⟩
  | full after size ended held =>
      have cut_eq : cut = (.error (.stopped (.output .sinkFull)), after) := run_of_error checked ended
      rw [cut_eq, left]
      exact .inr ⟨size, rfl, held⟩

/--
What a program writes to a sink that takes `n` bytes is the first part of what it writes to an unlimited
one. If all of it fits, the run is the same; if not, it ends with the error of the sink, and it gets only
to the sites that it gets to before the first byte that does not fit.
-/
theorem output_cut_short (checked : check source = .ok (program, distances)) (n fuel : Nat) (clock : Float) :
    let free (fuel : Nat) := run fuel source (.initial .unlimited clock)
    let cut (fuel : Nat) := run fuel source (.initial (.upTo n) clock)
    let written := (free fuel).2.sink.held
    (∀ more, fuel ≤ more → ∃ rest, (free more).2.sink.held = written ++ rest) ∧
    (cut fuel).2.sink.held = written.extract 0 n ∧
    (written.size ≤ n → cut fuel = ((free fuel).1, (free fuel).2.upTo n)) ∧
    (n < written.size → ∀ more, fuel ≤ more →
      (cut more).1 = .error (.stopped (.output .sinkFull)) ∧ (cut more).2.sink.held = written.extract 0 n) ∧
    ∀ site m', Reaches fuel program distances (.initial (.upTo n) clock) site m' ↔
      ∃ m, Reaches fuel program distances (.initial .unlimited clock) site m ∧
        m.sink.held.size ≤ n ∧ m' = m.upTo n := by
  intro free cut written
  have goesOn {more : Nat} (le : fuel ≤ more) : Extends (free fuel).2 (free more).2 := by
    rcases run_prolongs checked le with same | ⟨-, later⟩
    · exact (congrArg Prod.snd same) ▸ extends_refl _
    · exact later
  have room : Roomy n (.initial .unlimited clock) := ⟨rfl, Nat.zero_le n⟩
  refine ⟨fun more le => goesOn le, ?_, fun fits => ?_, fun full more le => ?_,
    fun site m' => reaches_upTo room⟩
  · rcases run_cut checked n fuel clock with ⟨fits, same⟩ | ⟨-, -, held⟩
    · change (run fuel source _).2.sink.held = _
      rw [same, extract_of_le fits]
      rfl
    · exact held
  · rcases run_cut checked n fuel clock with ⟨-, same⟩ | ⟨full, -⟩
    · exact same
    · exact (Nat.not_le_of_lt full fits).elim
  · have later := goesOn le
    rcases run_cut checked n more clock with ⟨fits, -⟩ | ⟨-, failed, held⟩
    · exact (Nat.not_le_of_lt (Nat.lt_of_lt_of_le full later.size_le) fits).elim
    · exact ⟨failed, held.trans (later.extract (Nat.le_of_lt full))⟩

/-- Of the eight bytes of two lines the sink takes six. -/
theorem second_line_cut_short :
    ∃ program distances, check "print nil; print nil;" = .ok (program, distances) ∧
      ∀ more, 3 ≤ more →
        (run more "print nil; print nil;" (.initial (.upTo 6) 0)).1 = .error (.stopped (.output .sinkFull)) ∧
        (run more "print nil; print nil;" (.initial (.upTo 6) 0)).2.sink.held = "nil\nni".toUTF8 := by
  let program : List Stmt := [.print (.literal .nil), .print (.literal .nil)]
  have checked : check "print nil; print nil;" = .ok (program, .empty) := by cbv
  have ended : interpret 3 program .empty (.initial .unlimited 0) =
      .ok () { Machine.initial .unlimited 0 with sink := ⟨"nil\nnil\n".toUTF8, none, false⟩ } := rfl
  obtain ⟨-, -, -, cut, -⟩ := output_cut_short checked 6 3 0
  have six : "nil\nnil\n".toUTF8.extract 0 6 = "nil\nni".toUTF8 := by decide
  simp only [run_of_ok checked ended, six] at cut
  exact ⟨program, .empty, checked, fun more le => cut (by decide) more le⟩

end Lox
