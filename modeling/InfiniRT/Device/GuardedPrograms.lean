import InfiniRT.Device.DeviceGuard

/-!
# Programs with guards

A `Program` is a block of the code of a client: it selects types and devices, opens scopes that hold
a guard, throws and catches.  What comes after a call may depend on what it returned, and a block
hands on a value of type `α`, which is whatever the client keeps in its variables.  A loop is the
tree of its rounds.  A run records every scope it opens, so a statement about every record is one
about guards at any depth.

Two facts carry the proofs.  A guard is disarmed or remembers the thread it was constructed on, and
what was current for a backend stays known to have been current, whatever a body does.  Proved:

* **`construct_run`** — what a constructor leaves, and when the guard is active;
* **`run_sound`** — every guard of every program keeps its promise;
* **`scopes_proper`** — guards restore the visible selection, at any depth and however a scope is
  left.
-/

namespace InfiniRT.Device

open InfiniRT.Library (Action Fault)
open InfiniRT.Tensor (DeviceType)

open DeviceGuard (IsSelected armed construct reading restore restore_armed restore_restored switched
  unsupported warning)

/-- A block of a client. -/
inductive Program (α : Type)
  /-- The block ends. -/
  | done (a : α)
  | throw (a : α)
  | runtimeDeviceType (next : RawType → Program α)
  | setRuntimeDeviceType (type : RawType) (next : Program α)
  | getDevice (next : Error × Option ℤ → Program α)
  | setDevice (index : ℤ) (next : Error → Program α)
  /-- A guard, what is thrown if it is required and not active, the body, which may ask whether the
  guard is active, and what follows. -/
  | scope (type : RawType) (index : ℤ) (required : Bool) (refused : α) (body : Bool → Program α)
      (next : α → Program α)
  /-- `try`, `catch` and what follows. -/
  | attempt (body : Program α) (handler : α → Program α) (next : α → Program α)

/-- How a block is left. -/
inductive Exit (α : Type)
  | finished (a : α)
  | thrown (a : α)
  /-- An assertion failed. -/
  | aborted
  deriving DecidableEq, Repr

/-- A scope that a run opened. -/
structure Scope (B : Backends) where
  type : RawType
  index : ℤ
  required : Bool
  /-- The thread before the guard was constructed. -/
  before : Thread B
  guard : DeviceGuard
  /-- The thread when the guard was constructed, before an exception of the required form. -/
  constructed : Thread B
  /-- The required form threw. -/
  refused : Bool
  /-- The thread when the scope was left, and after the destructor; a body may also abort. -/
  ending : Option (Thread B × Thread B)

/-- What a block leaves, and the scopes it opened. -/
structure Outcome (B : Backends) (α : Type) where
  exit : Exit α
  thread : Thread B
  scopes : List (Scope B)

variable {B : Backends} {α β : Type} {s s' : Thread B} {type : RawType} {index : ℤ}

namespace Outcome

def after (o : Outcome B α) (earlier : List (Scope B)) : Outcome B α :=
  { o with scopes := earlier ++ o.scopes }

/-- Go on if the block was not left early. -/
def andThen (o : Outcome B α) (next : α → Thread B → Outcome B α) : Outcome B α :=
  match o.exit with
  | .finished a => (next a o.thread).after o.scopes
  | .thrown _ => o
  | .aborted => o

/-- Handle what was thrown. -/
def caught (o : Outcome B α) (handler : α → Thread B → Outcome B α) : Outcome B α :=
  match o.exit with
  | .finished _ => o
  | .thrown a => (handler a o.thread).after o.scopes
  | .aborted => o

end Outcome

/-- Run a function and go on, unless it aborts. -/
def perform (x : Action (Thread B) Fault β) (s : Thread B) (next : β → Thread B → Outcome B α) :
    Outcome B α :=
  match x.run s with
  | (.ok b, s') => next b s'
  | (.error _, s') => ⟨.aborted, s', []⟩

/-- Leave a scope: the guard is destroyed, unless the body aborted. -/
def leave (g : DeviceGuard) (record : Option (Thread B × Thread B) → Scope B) (o : Outcome B α) :
    Outcome B α :=
  match o.exit with
  | .finished a => (perform (restore g) o.thread fun _ s =>
      ⟨.finished a, s, [record (some (o.thread, s))]⟩).after o.scopes
  | .thrown a => (perform (restore g) o.thread fun _ s =>
      ⟨.thrown a, s, [record (some (o.thread, s))]⟩).after o.scopes
  | .aborted => { o with scopes := o.scopes ++ [record none] }

/-- Run a block. -/
def Program.run : Program α → Thread B → Outcome B α
  | .done a, s => ⟨.finished a, s, []⟩
  | .throw a, s => ⟨.thrown a, s, []⟩
  | .runtimeDeviceType next, s => perform Device.runtimeDeviceType s fun type s' =>
    (next type).run s'
  | .setRuntimeDeviceType type next, s =>
    perform (Device.setRuntimeDeviceType type) s fun _ s' => next.run s'
  | .getDevice next, s => perform Device.getDevice s fun answer s' => (next answer).run s'
  | .setDevice index next, s => perform (Device.setDevice index) s fun status s' =>
    (next status).run s'
  | .scope type index required refused body next, s =>
    perform (construct type index) s fun g s₁ =>
      let record := Scope.mk type index required s g s₁
      if required && !g.active then
        -- the guard is constructed when the required form throws, so it is destroyed
        perform (restore g) s₁ fun _ s₂ => ⟨.thrown refused, s₂, [record true (some (s₁, s₂))]⟩
      else
        (leave g (record false) ((body g.active).run s₁)).andThen fun a s₂ => (next a).run s₂
  | .attempt body handler next, s =>
    ((body.run s).caught fun a s' => (handler a).run s').andThen fun a s' => (next a).run s'

/-! ### What a guard promises -/

/-- `GetDevice` succeeds when a guard for the type is constructed on the thread. -/
def Readable (s : Thread B) (type : RawType) : Prop :=
  B.enabledType type = true → s.getAnswer.1 = kSuccess

/-- A guard for the target selects it: its type is enabled, and it is selected already, or
`SetDevice` succeeds once the type is. -/
def Selects (s : Thread B) (type : RawType) (index : ℤ) : Prop :=
  ∃ t, ∃ ht : B.enabled t = true, typeValue t = type ∧
    (IsSelected s type index ∨ ((switched s ht).setAnswer index).1 = kSuccess)

theorem Selects.enabledType (h : Selects s type index) : B.enabledType type = true := by
  obtain ⟨t, ht, hvalue, -⟩ := h
  exact Backends.enabledType_eq_true_iff.mpr ⟨t, ht, hvalue⟩

/-- What the constructor of a guard that is not active did between `s` and `u`: nothing, or it
selected the target in vain and went back. -/
def GivesUp (s u : Thread B) (type : RawType) (index : ℤ) : Prop :=
  B.enabledType type = false ∧ u.events = s.events ++ [.print unsupported] ∨
  ∃ t status current after, typeValue t = type ∧ status ≠ kSuccess ∧ u.events = s.events ++
    [.getDevice s.selected kSuccess, .select t, .setDevice t index status (s.current t) after,
      .print (warning status "select target device"), .select s.selected,
      .setDevice s.selected (s.current s.selected) kSuccess current (s.current s.selected)]

/-- The promise of a guard. -/
structure Scope.Proper (r : Scope B) : Prop where
  /-- A guard is active exactly if it selects the target. -/
  active_iff : r.guard.active = true ↔ Selects r.before r.type r.index
  /-- An active guard restores what was visible. -/
  restores : r.guard.active = true → ∀ e ∈ r.ending, e.2.visible = r.before.visible
  /-- A guard that is not active leaves it as it was, -/
  unchanged : r.guard.active = false → r.constructed.visible = r.before.visible
  /-- goes back at most once, -/
  givesUp : r.guard.active = false → GivesUp r.before r.constructed r.type r.index
  /-- and is destroyed without effect. -/
  inert : r.guard.active = false → ∀ e ∈ r.ending, e.2 = e.1
  /-- The required form throws exactly when the guard is not active, -/
  refuses : r.refused = (r.required && !r.guard.active)
  /-- and then the scope ends where it began. -/
  unwinds : r.refused = true → r.ending = some (r.constructed, r.constructed)

/-! ### The guard of a scope -/

/-- The guard has nothing to restore, or it restores the thread `s` it was constructed on. -/
def Guards (s : Thread B) (g : DeviceGuard) : Prop :=
  g.restored = true ∧ g.active = false ∨ g = armed s true

theorem read_events (hread : s.getAnswer.1 = kSuccess) :
    s.read.events = s.events ++ [.getDevice s.selected kSuccess] := by
  rw [Thread.read, hread, Thread.warned_success]
  rfl

/-- The fourth exit: `SetDevice` refused, and the thread went back. -/
theorem construct_refused_run (hB : B.Cooperates) {t : DeviceType} (ht : B.enabled t = true)
    (hselected : ¬IsSelected s (typeValue t) index)
    (hstatus : ((switched s ht).setAnswer index).1 ≠ kSuccess) :
    ∃ g u, (construct (typeValue t) index).run s = (.ok g, u) ∧ s.Precedes u ∧
      g.restored = true ∧ g.active = false ∧ (s.getAnswer.1 = kSuccess →
        u.visible = s.visible ∧ GivesUp s u (typeValue t) index) := by
  have hs : s.Precedes (((switched s ht).moved index).warned ((switched s ht).setAnswer index).1
      "select target device") :=
    (((Thread.Precedes.read s).trans (.select _ ht)).trans (.moved _ index)).trans (.warned _ _ _)
  obtain ⟨u, hrun, hu, hsel, hcurrent, hevents⟩ := restore_armed hB false hs
  refine ⟨_, u, (DeviceGuard.construct_refused ht hselected hstatus).trans hrun, hs.trans hu,
    rfl, rfl, fun hread => ⟨?_, .inr ⟨t, ((switched s ht).setAnswer index).1,
      ((switched s ht).moved index).current s.selected, ((switched s ht).setAnswer index).2, rfl,
      hstatus, ?_⟩⟩⟩
  · rw [if_pos hread] at hcurrent
    rw [Thread.visible, hsel, hcurrent, Function.update_self]
    rfl
  · rw [hevents hread, Thread.warned_current, Thread.warned, if_pos hstatus, Thread.record_events,
      Thread.moved_events]
    simp [switched, read_events hread]

/-- **The constructor.** -/
theorem construct_run (hB : B.Cooperates) (s : Thread B) (type : RawType) (index : ℤ) :
    ∃ g u, (construct type index).run s = (.ok g, u) ∧ s.Precedes u ∧ Guards s g ∧
      (g.active = true ↔ Selects s type index) ∧
      (g.active = false → Readable s type → u.visible = s.visible ∧ GivesUp s u type index) := by
  cases htype : B.enabledType type with
  | false =>
    have hnot : ¬Selects s type index := fun h => by
      rw [h.enabledType] at htype
      cases htype
    exact ⟨_, _, DeviceGuard.construct_unsupported htype, .record s _, .inl ⟨rfl, rfl⟩,
      iff_of_false Bool.false_ne_true hnot, fun _ _ => ⟨rfl, .inl ⟨htype, rfl⟩⟩⟩
  | true =>
    obtain ⟨t, ht, rfl⟩ := Backends.enabledType_eq_true_iff.mp htype
    by_cases hselected : IsSelected s (typeValue t) index
    · exact ⟨_, _, DeviceGuard.construct_selected htype hselected, .read s, .inr rfl,
        iff_of_true rfl ⟨t, ht, rfl, .inl hselected⟩, nofun⟩
    by_cases hstatus : ((switched s ht).setAnswer index).1 = kSuccess
    · exact ⟨_, _, DeviceGuard.construct_switched ht hselected hstatus,
        ((Thread.Precedes.read s).trans (.select _ ht)).trans (.moved _ index), .inr rfl,
        iff_of_true rfl ⟨t, ht, rfl, .inr hstatus⟩, nofun⟩
    · have hnot : ¬Selects s (typeValue t) index := by
        rintro ⟨t', ht', hvalue, hsel | hsuccess⟩
        · exact hselected hsel
        · obtain rfl := typeValue_injective hvalue
          exact hstatus hsuccess
      obtain ⟨g, u, hrun, hu, hrestored, hactive, hgives⟩ :=
        construct_refused_run hB ht hselected hstatus
      refine ⟨g, u, hrun, hu, .inl ⟨hrestored, hactive⟩, ?_, fun _ hread => hgives (hread htype)⟩
      exact iff_of_false (hactive ▸ Bool.false_ne_true) hnot

/-- **The destructor**, on a thread that has come some way since the constructor. -/
theorem restore_run (hB : B.Cooperates) {g : DeviceGuard} (hg : Guards s g) (hs : s.Precedes s') :
    ∃ g' u, (restore g).run s' = (.ok g', u) ∧ s'.Precedes u ∧ (g.active = false → u = s') ∧
      (g.active = true → s.getAnswer.1 = kSuccess → u.visible = s.visible) := by
  rcases hg with ⟨hrestored, hactive⟩ | rfl
  · exact ⟨g, s', restore_restored hrestored, .refl s', fun _ => rfl,
      fun h => absurd (hactive.symm.trans h) Bool.false_ne_true⟩
  · obtain ⟨u, hrun, hu, hsel, hcurrent, -⟩ := restore_armed hB true hs
    refine ⟨_, u, hrun, hu, nofun, fun _ hread => ?_⟩
    rw [if_pos hread] at hcurrent
    rw [Thread.visible, hsel, hcurrent, Function.update_self]
    rfl

/-! ### Every scope of a run -/

namespace Outcome

/-- What was current on the thread `s` is remembered, and every guard that could read the current
device keeps its promise. -/
structure Sound (s : Thread B) (o : Outcome B α) : Prop where
  precedes : s.Precedes o.thread
  proper : ∀ r ∈ o.scopes, Readable r.before r.type → r.Proper

variable {o : Outcome B α}

theorem Sound.weaken (h : o.Sound s') (hs : s.Precedes s') : o.Sound s :=
  ⟨hs.trans h.precedes, h.proper⟩

theorem Sound.after (h : o.Sound s) {earlier : List (Scope B)}
    (hearlier : ∀ r ∈ earlier, Readable r.before r.type → r.Proper) :
    (o.after earlier).Sound s := by
  refine ⟨h.precedes, fun r hr => ?_⟩
  rcases List.mem_append.mp hr with hr | hr
  · exact hearlier r hr
  · exact h.proper r hr

theorem Sound.andThen (h : o.Sound s) {next : α → Thread B → Outcome B α}
    (hnext : ∀ a s', (next a s').Sound s') : (o.andThen next).Sound s := by
  unfold Outcome.andThen
  split
  · exact ((hnext _ _).weaken h.precedes).after h.proper
  · exact h
  · exact h

theorem Sound.caught (h : o.Sound s) {handler : α → Thread B → Outcome B α}
    (hhandler : ∀ a s', (handler a s').Sound s') : (o.caught handler).Sound s := by
  unfold Outcome.caught
  split
  · exact h
  · exact ((hhandler _ _).weaken h.precedes).after h.proper
  · exact h

theorem Sound.perform {x : Action (Thread B) Fault β} {next : β → Thread B → Outcome B α}
    (hx : s.Precedes (x.run s).2) (hnext : ∀ b s', (next b s').Sound s') :
    (perform x s next).Sound s := by
  unfold Device.perform
  split
  · next hrun =>
    rw [hrun] at hx
    exact (hnext _ _).weaken hx
  · next hrun =>
    rw [hrun] at hx
    exact ⟨hx, fun _ hr => absurd hr List.not_mem_nil⟩

end Outcome

theorem perform_eq {x : Action (Thread B) Fault β} {next : β → Thread B → Outcome B α} {b : β}
    (h : x.run s = (.ok b, s')) : perform x s next = next b s' := by
  rw [perform, h]

/-- The promise of the guard of a scope whose body was run. -/
theorem leave_sound (hB : B.Cooperates) {g : DeviceGuard} {u : Thread B} {required : Bool}
    (hg : Guards s g) (hs : s.Precedes u) (hnot : (required && !g.active) = false)
    (hgives : g.active = false → Readable s type → u.visible = s.visible ∧ GivesUp s u type index)
    (hactive : g.active = true ↔ Selects s type index) {o : Outcome B α} (ho : o.Sound u) :
    (leave g (.mk type index required s g u false) o).Sound u := by
  have hproper : ∀ ending : Option (Thread B × Thread B),
      (∀ e ∈ ending, (g.active = false → e.2 = e.1) ∧
        (g.active = true → s.getAnswer.1 = kSuccess → e.2.visible = s.visible)) →
      Readable s type → (Scope.mk type index required s g u false ending).Proper := by
    intro ending hending hread
    exact ⟨hactive, fun h e he => (hending e he).2 h (hread (hactive.mp h).enabledType),
      fun h => (hgives h hread).1, fun h => (hgives h hread).2, fun h e he => (hending e he).1 h,
      hnot.symm, nofun⟩
  have hnone := hproper none nofun
  obtain ⟨g', v, hrun, hv, hinert, hrestores⟩ := restore_run hB hg (hs.trans ho.precedes)
  have hsome := hproper (some (o.thread, v)) fun e he => by
    obtain rfl := Option.some.inj he
    exact ⟨hinert, hrestores⟩
  have hexit : ∀ exit : Exit α, (Outcome.mk exit v
      [Scope.mk type index required s g u false (some (o.thread, v))]).Sound u := fun exit =>
    ⟨ho.precedes.trans hv, fun r hr => by
      obtain rfl := List.mem_singleton.mp hr
      exact hsome⟩
  unfold leave
  split
  · rw [perform_eq hrun]
    exact (hexit _).after ho.proper
  · rw [perform_eq hrun]
    exact (hexit _).after ho.proper
  · refine ⟨ho.precedes, fun r hr => ?_⟩
    rcases List.mem_append.mp hr with hr | hr
    · exact ho.proper r hr
    · obtain rfl := List.mem_singleton.mp hr
      exact hnone

/-- The required form throws: its guard is not active, and is destroyed at once. -/
theorem refused_sound (hB : B.Cooperates) {g : DeviceGuard} {u : Thread B} {required : Bool}
    (hg : Guards s g) (hs : s.Precedes u) (hnot : (required && !g.active) = true)
    (hgives : g.active = false → Readable s type → u.visible = s.visible ∧ GivesUp s u type index)
    (hselects : g.active = true ↔ Selects s type index) (refused : α) :
    (perform (restore g) u fun _ v => Outcome.mk (.thrown refused) v
      [.mk type index required s g u true (some (u, v))]).Sound u := by
  have hactive : g.active = false := by
    rw [Bool.and_eq_true, Bool.not_eq_true'] at hnot
    exact hnot.2
  obtain ⟨g', v, hrun, hv, hinert, -⟩ := restore_run hB hg hs
  obtain rfl := hinert hactive
  rw [perform_eq hrun]
  refine ⟨hv, fun r hr hread => ?_⟩
  obtain rfl := List.mem_singleton.mp hr
  refine ⟨hselects, fun h => ?_, fun h => (hgives h hread).1, fun h => (hgives h hread).2,
    fun _ e he => ?_, hnot.symm, fun _ => rfl⟩
  · exact absurd (hactive.symm.trans h) Bool.false_ne_true
  · obtain rfl := Option.some.inj he
    rfl

/-- **Every guard of every program keeps its promise.** The induction is on the program, and an
exception goes through all the scopes it leaves. -/
theorem Program.run_sound (hB : B.Cooperates) (p : Program α) (s : Thread B) :
    (p.run s).Sound s := by
  induction p generalizing s with
  | done a => exact ⟨.refl s, fun _ hr => absurd hr List.not_mem_nil⟩
  | throw a => exact ⟨.refl s, fun _ hr => absurd hr List.not_mem_nil⟩
  | runtimeDeviceType next ih => exact .perform (.refl s) ih
  | setRuntimeDeviceType type next ih => exact .perform (.setRuntimeDeviceType type s) fun _ => ih
  | getDevice next ih => exact .perform (.record s _) ih
  | setDevice index next ih => exact .perform (.moved s index) ih
  | scope type index required refused body next ihbody ihnext =>
    obtain ⟨g, u, hrun, hs, hg, hactive, hgives⟩ := construct_run hB s type index
    rw [Program.run, perform_eq hrun]
    dsimp only
    split
    · next hnot => exact (refused_sound hB hg hs hnot hgives hactive refused).weaken hs
    · next hnot =>
      have hleave := leave_sound hB hg hs (Bool.not_eq_true _ ▸ hnot) hgives hactive
        (ihbody g.active u)
      exact (hleave.andThen ihnext).weaken hs
  | attempt body handler next ihbody ihhandler ihnext =>
    exact ((ihbody s).caught ihhandler).andThen ihnext

/-- A required scope whose body does not throw is left by an exception exactly when its guard is not
active. -/
theorem required_throws_iff (hB : B.Cooperates) (s : Thread B) (type : RawType) (index : ℤ)
    (refused a : α) :
    ∃ g u, (construct type index).run s = (.ok g, u) ∧
      (((Program.scope type index true refused (fun _ => .done a) .done).run s).exit =
        .thrown refused ↔ g.active = false) := by
  obtain ⟨g, u, hrun, hs, hg, -, -⟩ := construct_run hB s type index
  obtain ⟨g', v, hrestore, -, -, -⟩ := restore_run hB hg hs
  refine ⟨g, u, hrun, ?_⟩
  rw [Program.run, perform_eq hrun]
  dsimp only
  cases hactive : g.active with
  | false =>
    refine iff_of_true ?_ rfl
    rw [if_pos (by rfl), perform_eq hrestore]
  | true =>
    refine iff_of_false ?_ (by simp)
    rw [if_neg (by simp), leave]
    simp [Program.run, perform_eq hrestore, Outcome.after, Outcome.andThen]

/-- **Guards restore the visible selection**, in every program, at any depth and however a scope is
left. -/
theorem Program.scopes_proper (hB : B.Cooperates) (p : Program α) (s : Thread B) :
    (∀ r ∈ (p.run s).scopes, Readable r.before r.type → r.Proper) ∧
    ∀ type index, ∀ refused a : α, ∃ g u, (construct type index).run s = (.ok g, u) ∧
      (((Program.scope type index true refused (fun _ => .done a) .done).run s).exit =
        .thrown refused ↔ g.active = false) :=
  ⟨(p.run_sound hB s).proper, required_throws_iff hB s⟩

/-- A guard for the other backend, a body that moves that backend, and an exception out of a second
guard; the handler has a third one. -/
def nested : Program ℕ :=
  .attempt
    (.scope 1#32 1 false 0 (fun _ => .setDevice 2 fun _ =>
      .scope 999#32 0 true 7 (fun _ => .done 1) .done)
      .done)
    (fun a => .scope 0#32 0 true 8 (fun _ => .done a) .done) .done

theorem scopes_proper_nested : (nested.run DeviceGuard.onCpu).scopes.length = 3 ∧
    ∀ r ∈ (nested.run DeviceGuard.onCpu).scopes, r.Proper :=
  ⟨rfl, fun r hr =>
    (nested.scopes_proper DeviceGuard.cpuAndNvidia_cooperates DeviceGuard.onCpu).1 r hr
    fun _ => rfl⟩

end InfiniRT.Device
