import InfiniRT.Pool.Requests

/-!
# Memory behind the pool

A `Loaded` world has the bytes of the device memory.  Clients write through addresses that have a
logical owner, the backend hands out memory apart from all that is allocated and leaves allocated
memory alone, and everything else may change at any time.  Then every block is an array of its own:
its bytes are what was last written through its own address, whatever the pool and the other clients
do, and also while nobody owns it.  Proved:

* **`region_apart`** — two blocks have no byte in common;
* **`memory_step`** — a step leaves in a block what was last written through its address;
* **`blocks_are_arrays`** — in every run, every block is an array of its own.
-/

namespace InfiniRT.Pool

open InfiniRT.Library

/-! ### Regions -/

/-- The start and the size of a range of bytes. -/
abbrev Region := ℕ × ℕ

/-- The address is in the range. -/
def Region.Has (r : Region) (a : ℕ) : Prop := r.1 ≤ a ∧ a < r.1 + r.2

/-- Two ranges that start at different addresses and have no byte in common. -/
def Region.Apart (r q : Region) : Prop := r.1 ≠ q.1 ∧ (r.1 + r.2 ≤ q.1 ∨ q.1 + q.2 ≤ r.1)

theorem Region.Apart.symm {r q : Region} (h : r.Apart q) : q.Apart r := ⟨Ne.symm h.1, Or.symm h.2⟩

instance : Std.Symm Region.Apart := ⟨fun _ _ => Region.Apart.symm⟩

theorem Region.Apart.not_has {r q : Region} (h : r.Apart q) {a : ℕ} (ha : r.Has a) : ¬q.Has a := by
  obtain ⟨-, hapart⟩ := h
  simp only [Region.Has] at ha ⊢
  omega

/-- The memory the backend has handed out and not taken back. -/
def liveRegions : List BackendCall → List Region
  | [] => []
  | .malloc _ n status out :: calls =>
    if status = kSuccess then (out, n) :: liveRegions calls else liveRegions calls
  | .free _ p status :: calls =>
    if status = kSuccess then (liveRegions calls).eraseP fun r => r.1 = p else liveRegions calls

/-- Whatever the backend handed out was apart from what was allocated then. -/
def Separated : List BackendCall → Prop
  | [] => True
  | .malloc _ n status out :: calls =>
    Separated calls ∧ (status = kSuccess → ∀ r ∈ liveRegions calls, Region.Apart (out, n) r)
  | .free .. :: calls => Separated calls

instance (r q : Region) : Decidable (r.Apart q) := inferInstanceAs (Decidable (_ ∧ _))

instance decidableSeparated : (calls : List BackendCall) → Decidable (Separated calls)
  | [] => .isTrue trivial
  | .malloc _ _ _ _ :: calls =>
    have := decidableSeparated calls
    inferInstanceAs (Decidable (_ ∧ _))
  | .free .. :: calls => decidableSeparated calls

section Calls

variable {calls : List BackendCall} {p : Ptr} {n : ℕ}

theorem Separated.pairwise (h : Separated calls) : (liveRegions calls).Pairwise Region.Apart := by
  induction calls with
  | nil => exact .nil
  | cons c calls ih =>
    cases c with
    | malloc stream n status out =>
      obtain ⟨hcalls, hout⟩ := h
      unfold liveRegions
      split
      · next hstatus => exact .cons (hout hstatus) (ih hcalls)
      · exact ih hcalls
    | free stream p status =>
      unfold liveRegions
      split
      · exact (ih h).sublist List.eraseP_sublist
      · exact ih h

/-- What is allocated starts where the addresses say. -/
theorem map_liveRegions (calls : List BackendCall) :
    (liveRegions calls).map (·.1) = live calls := by
  induction calls with
  | nil => rfl
  | cons c calls ih =>
    cases c with
    | malloc stream n status out =>
      unfold liveRegions live
      split
      · rw [List.map_cons, ih]
      · exact ih
    | free stream p status =>
      unfold liveRegions live
      split
      · rw [← ih, List.erase_eq_eraseP', List.eraseP_map]
        rfl
      · exact ih

/-- An allocated address has the size that was asked for last. -/
theorem mem_liveRegions (h : Separated calls) (hp : p ∈ live calls)
    (hn : askedSize p calls = some n) :
    (p, n) ∈ liveRegions calls := by
  induction calls with
  | nil => cases hp
  | cons c calls ih =>
    cases c with
    | malloc stream m status out =>
      unfold live at hp
      unfold askedSize at hn
      unfold liveRegions
      by_cases hstatus : status = kSuccess
      · rw [if_pos hstatus] at hp ⊢
        by_cases hout : out = p
        · rw [if_pos ⟨hstatus, hout⟩] at hn
          cases hn
          exact hout ▸ List.mem_cons_self
        · rw [if_neg fun hboth => hout hboth.2] at hn
          rcases List.mem_cons.mp hp with heq | hp
          · exact absurd heq.symm hout
          · exact List.mem_cons_of_mem _ (ih h.1 hp hn)
      · rw [if_neg hstatus] at hp ⊢
        rw [if_neg fun hboth => hstatus hboth.1] at hn
        exact ih h.1 hp hn
    | free stream q status =>
      unfold live at hp
      unfold liveRegions
      have hn : askedSize p calls = some n := hn
      have h : Separated calls := h
      by_cases hstatus : status = kSuccess
      · rw [if_pos hstatus] at hp ⊢
        have hnodup : (live calls).Nodup := by
          rw [← map_liveRegions, List.Nodup, List.pairwise_map]
          exact h.pairwise.imp fun hapart => hapart.1
        obtain ⟨hne, hp⟩ := hnodup.mem_erase_iff.mp hp
        exact (List.mem_eraseP_of_neg (by simpa using hne)).mpr (ih h hp hn)
      · rw [if_neg hstatus] at hp ⊢
        exact ih h hp hn

end Calls

/-! ### Clients and their bytes -/

/-- A pool with its owners, and the bytes of the device memory. -/
structure Loaded where
  world : World
  memory : ℕ → UInt8

/-- An event of the pool, or a client that writes one byte. -/
inductive LoadedEvent
  | pool (e : Event) (o : Outcome)
  | write (p : Ptr) (offset : ℕ) (value : UInt8)

/-- The bytes of the block at `p`. -/
def Loaded.region (m : Loaded) (p : Ptr) (b : BlockId) : Region :=
  (p, (m.world.state.blocks b).size)

/-- A client owns the block at `p`, which has more than `offset` bytes. -/
def Loaded.Owns (m : Loaded) (p : Ptr) (offset : ℕ) : Prop :=
  m.world.closed = false ∧ ∃ b, m.world.state.allBlocks.lookup p = some b ∧
    (m.world.state.blocks b).inUse = true ∧ offset < (m.world.state.blocks b).size

/-- The step relation.  The environment keeps two contracts in an event of the pool: it hands out
memory apart from what is allocated, and it does not touch memory that is allocated and stays so. -/
inductive LoadedStep (m : Loaded) : LoadedEvent → Loaded → Prop
  | pool {e : Event} {o : Outcome} {m' : Loaded} (hstep : Step m.world (e, o) m'.world)
      (hseparated : Separated m'.world.state.calls)
      (hkept : ∀ r ∈ liveRegions m.world.state.calls, r ∈ liveRegions m'.world.state.calls →
        ∀ a, r.Has a → m'.memory a = m.memory a) : LoadedStep m (.pool e o) m'
  | write {p : Ptr} {offset : ℕ} {value : UInt8} (howns : m.Owns p offset) :
      LoadedStep m (.write p offset value)
        { m with memory := Function.update m.memory (p + offset) value }

/-- A pool that was just constructed, on a memory of which nothing is known. -/
def Loaded.initial (stream : Option Stream) (isNvidia : Bool) (memory : ℕ → UInt8) : Loaded :=
  ⟨.initial stream isNvidia, memory⟩

/-- The byte of an array after the writes through its own address. -/
def lastWritten (p : Ptr) (offset : ℕ) : List LoadedEvent → UInt8 → UInt8
  | [], value => value
  | .write q i v :: events, value =>
    lastWritten p offset events (if q = p ∧ i = offset then v else value)
  | .pool .. :: events, value => lastWritten p offset events value

variable {m m' : Loaded} {l : LoadedEvent} {trace since : List LoadedEvent} {p q : Ptr}
  {b c : BlockId} {offset : ℕ}

theorem lastWritten_append (events : List LoadedEvent) (l : LoadedEvent) (value : UInt8) :
    lastWritten p offset (events ++ [l]) value =
      lastWritten p offset [l] (lastWritten p offset events value) := by
  induction events generalizing value with
  | nil => rfl
  | cons e events ih => cases e <;> exact ih _

/-- The invariant: the pool is sound, and the backend kept its contract. -/
structure Loaded.Sound (m : Loaded) : Prop where
  sized : Sized m.world
  separated : Separated m.world.state.calls

namespace Loaded.Sound

theorem step (h : m.Sound) (hstep : LoadedStep m l m') : m'.Sound := by
  cases hstep with
  | pool hstep hseparated => exact ⟨h.sized.step hstep, hseparated⟩
  | write => exact ⟨h.sized, h.separated⟩

theorem of_run {stream : Option Stream} {isNvidia : Bool} {memory : ℕ → UInt8}
    (hrun : Run LoadedStep (.initial stream isNvidia memory) trace m) : m.Sound :=
  hrun.invariant Loaded.Sound (fun _ _ _ h hstep => h.step hstep)
    ⟨sized_of_run ⟨stream, isNvidia, .nil⟩, trivial⟩

/-- A block has the memory that was handed out for it. -/
theorem region_mem (h : m.Sound) (hopen : m.world.closed = false)
    (hb : m.world.state.allBlocks.lookup p = some b) :
    m.region p b ∈ liveRegions m.world.state.calls := by
  refine mem_liveRegions h.separated ?_ (h.sized.asked hopen p b hb)
  exact (h.sized.invariant.backing hopen).live p (AList.lookup_isSome.mp (by rw [hb]; rfl))

/-- **Blocks are apart.** -/
theorem region_apart (h : m.Sound) (hopen : m.world.closed = false)
    (hb : m.world.state.allBlocks.lookup p = some b)
    (hc : m.world.state.allBlocks.lookup q = some c)
    (hpq : p ≠ q) : (m.region p b).Apart (m.region q c) :=
  h.separated.pairwise.forall (h.region_mem hopen hb) (h.region_mem hopen hc) fun heq =>
    hpq (congrArg Prod.fst heq)

/-- **One step** leaves in a block what was last written through its address. -/
theorem memory_step (h : m.Sound) (hstep : LoadedStep m l m') (hopen : m'.world.closed = false)
    (hb : m.world.state.allBlocks.lookup p = some b)
    (hb' : m'.world.state.allBlocks.lookup p = some b)
    (hoffset : offset < (m.world.state.blocks b).size) :
    m'.memory (p + offset) = lastWritten p offset [l] (m.memory (p + offset)) := by
  have h' := h.step hstep
  have hhas : (m.region p b).Has (p + offset) := ⟨Nat.le_add_right _ _,
    Nat.add_lt_add_left hoffset p⟩
  cases hstep with
  | @pool e o _ hstep hseparated hkept =>
    have hwas := h.sized.invariant.closed_of_enabled hstep.1
    have hsame := sameLife_of_step h.sized.invariant hb ⟨hstep, hb'⟩
    refine hkept _ (h.region_mem hwas hb) ?_ _ hhas
    rw [Loaded.region, ← hsame.size]
    exact h'.region_mem hopen hb'
  | @write q i v howns =>
    obtain ⟨hopen, c, hc, -, hi⟩ := howns
    show Function.update m.memory (q + i) v (p + offset) = if q = p ∧ i = offset then v else _
    by_cases hqp : q = p
    · subst hqp
      by_cases hio : i = offset
      · rw [hio, Function.update_self, if_pos ⟨rfl, rfl⟩]
      · rw [if_neg fun hboth => hio hboth.2, Function.update_of_ne]
        omega
    · -- the other block does not have the byte
      rw [if_neg fun hboth => hqp hboth.1, Function.update_of_ne]
      intro heq
      refine (h.region_apart hopen hb hc (Ne.symm hqp)).not_has hhas ?_
      rw [heq]
      exact ⟨Nat.le_add_right _ _, Nat.add_lt_add_left hi _⟩

end Loaded.Sound

/-- A step after which the pool lives and the address still names the block. -/
def LoadedKeeping (p : Ptr) (b : BlockId) (m : Loaded) (l : LoadedEvent) (m' : Loaded) : Prop :=
  LoadedStep m l m' ∧ m'.world.closed = false ∧ m'.world.state.allBlocks.lookup p = some b

/-- **A run** that keeps the block leaves in it what was last written through its address. -/
theorem Loaded.Sound.memory_run (h : m.Sound) (hb : m.world.state.allBlocks.lookup p = some b)
    (hlater : Run (LoadedKeeping p b) m since m')
    (hoffset : offset < (m.world.state.blocks b).size) :
    m'.memory (p + offset) = lastWritten p offset since (m.memory (p + offset)) := by
  -- the size of the block is the same all along, so the offset stays inside
  have hkept : m'.Sound ∧ m'.world.state.allBlocks.lookup p = some b ∧
      (m'.world.state.blocks b).size = (m.world.state.blocks b).size ∧
      m'.memory (p + offset) = lastWritten p offset since (m.memory (p + offset)) := by
    refine hlater.history (fun since u => u.Sound ∧ u.world.state.allBlocks.lookup p = some b ∧
      (u.world.state.blocks b).size = (m.world.state.blocks b).size ∧
      u.memory (p + offset) = lastWritten p offset since (m.memory (p + offset))) ?_
        ⟨h, hb, rfl, rfl⟩
    rintro events u l u' ⟨hu, hub, husize, humemory⟩ ⟨hstep, hopen, hub'⟩
    refine ⟨hu.step hstep, hub', ?_, ?_⟩
    · cases hstep with
      | pool hstep =>
        exact (sameLife_of_step hu.sized.invariant hub ⟨hstep, hub'⟩).size.trans husize
      | write => exact husize
    · rw [lastWritten_append, ← humemory]
      exact hu.memory_step hstep hopen hub hub' (husize ▸ hoffset)
  exact hkept.2.2.2

/-- **Every block is an array of its own.**  In every run of a pool and its clients over a backend
that hands out memory apart from what is allocated, two blocks have no byte in common, a successful
request returns a block that has all the bytes asked for, and as long as a block is tracked each of
its bytes is the one last written there through the block's own address. -/
theorem blocks_are_arrays {stream : Option Stream} {isNvidia : Bool} {memory : ℕ → UInt8}
    (hrun : Run LoadedStep (.initial stream isNvidia memory) trace m) :
    (m.world.closed = false → ∀ p b q c, m.world.state.allBlocks.lookup p = some b →
      m.world.state.allBlocks.lookup q = some c → p ≠ q → (m.region p b).Apart (m.region q c)) ∧
    (∀ e t size isExact ans p m', Event.Requests e t size isExact ans →
      LoadedStep m (.pool e (.ok (.pointer p))) m' → p ≠ nullptr →
      ∃ b, m'.world.state.allBlocks.lookup p = some b ∧ size ≤ (m'.world.state.blocks b).size) ∧
    ∀ p b since m', m.world.state.allBlocks.lookup p = some b →
      Run (LoadedKeeping p b) m since m' → ∀ offset < (m.world.state.blocks b).size,
      m'.memory (p + offset) = lastWritten p offset since (m.memory (p + offset)) := by
  have hsound := Loaded.Sound.of_run hrun
  refine ⟨fun hopen p b q c hb hc hpq => hsound.region_apart hopen hb hc hpq, ?_, ?_⟩
  · intro e t size isExact ans p m' hreq hstep hp
    cases hstep with
    | pool hstep =>
      obtain ⟨b, hreturned⟩ := returned_of_step hsound.sized hreq hstep hp
      exact ⟨b, hreturned.lookup, hreturned.right.enough⟩
  · intro p b since m' hb hlater offset hoffset
    exact hsound.memory_run hb hlater hoffset

/-- Two clients have a block each, and the first one has written a byte. -/
def sharedMemory : Loaded where
  world := ((World.initial none false).runEvents
    [.allocate 1 100 (.granting 0 4096), .allocate 2 50 (.granting 1 65536)]).1
  memory := Function.update (fun _ => 0) (4096 + 3) 7

theorem sharedMemory_run : Run LoadedStep (.initial none false fun _ => 0)
    [.pool (.allocate 1 100 (.granting 0 4096)) (.ok (.pointer 4096)),
      .pool (.allocate 2 50 (.granting 1 65536)) (.ok (.pointer 65536)), .write 4096 3 7]
    sharedMemory := by
  have hfirst : LoadedStep (.initial none false fun _ => 0)
      (.pool (.allocate 1 100 (.granting 0 4096)) (.ok (.pointer 4096)))
      ⟨((World.initial none false).runEvents [.allocate 1 100 (.granting 0 4096)]).1, fun _ => 0⟩ :=
    .pool ⟨by decide, rfl⟩ (by decide) fun _ _ _ _ _ => rfl
  have hsecond : LoadedStep
      ⟨((World.initial none false).runEvents [.allocate 1 100 (.granting 0 4096)]).1, fun _ => 0⟩
      (.pool (.allocate 2 50 (.granting 1 65536)) (.ok (.pointer 65536)))
      ⟨sharedMemory.world, fun _ => 0⟩ :=
    .pool ⟨by decide, rfl⟩ (by decide) fun _ _ _ _ _ => rfl
  exact ((Run.single hfirst).snoc hsecond).snoc (.write ⟨rfl, 0, rfl, rfl, by decide⟩)

theorem blocks_are_arrays_sharedMemory :
    (sharedMemory.region 4096 0).Apart (sharedMemory.region 65536 1) ∧
    ∀ offset < 32768, sharedMemory.memory (65536 + offset) =
      lastWritten 65536 offset [] (sharedMemory.memory (65536 + offset)) :=
  have h := blocks_are_arrays sharedMemory_run
  ⟨h.1 rfl 4096 0 65536 1 rfl rfl (by decide), h.2.2 65536 1 [] _ rfl .nil⟩

end InfiniRT.Pool
