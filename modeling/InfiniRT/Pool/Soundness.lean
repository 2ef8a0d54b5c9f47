import InfiniRT.Pool.Pins

/-!
# Sound states

A state is `Sound` for the blocks held outside it if its blocks are in their places, its pins are
accounted for, and the backend has not taken back the memory of a tracked address.  Each operation
keeps a state sound.  Proved:

* **`initial`** — a pool just constructed is sound;
* **`allocated`** — an allocation keeps the state sound, with a lemma for each other operation;
* **`unclaimed`** — what the backend hands out is not tracked.
-/

namespace InfiniRT.Pool

open InfiniRT.Library

variable {s s' : State} {t : ThreadId} {b c : BlockId} {p : Ptr} {held held' : List BlockId}
  {ans : AllocAnswer} {size : ℕ} {isExact : Bool}

/-! ### Memory of the backend -/

/-- **The backing invariant.** -/
structure Backing (s : State) : Prop where
  live : ∀ p ∈ s.allBlocks, p ∈ live s.calls
  nodup : (Pool.live s.calls).Nodup
  nonnull : nullptr ∉ s.allBlocks

namespace Backing

/-- The tracked addresses and the addresses handed out stay the same. -/
theorem stay (h : Backing s) (hall : s'.allBlocks = s.allBlocks)
    (hlive : Pool.live s'.calls = Pool.live s.calls) : Backing s' := by
  refine ⟨?_, ?_, ?_⟩
  · rw [hall, hlive]
    exact h.live
  · rw [hlive]
    exact h.nodup
  · rw [hall]
    exact h.nonnull

/-- A new address from the backend. -/
theorem enroll (h : Backing s) (hout : p ∉ Pool.live s.calls) (hp : p ≠ nullptr)
    (hall : s'.allBlocks = s.allBlocks.insert p b)
    (hlive : Pool.live s'.calls = p :: Pool.live s.calls) : Backing s' := by
  refine ⟨?_, ?_, ?_⟩
  · intro q hq
    rw [hall, AList.mem_insert] at hq
    rw [hlive]
    rcases hq with rfl | hq
    · exact List.mem_cons_self
    · exact List.mem_cons_of_mem _ (h.live q hq)
  · rw [hlive]
    exact List.nodup_cons.mpr ⟨hout, h.nodup⟩
  · rw [hall, AList.mem_insert, not_or]
    exact ⟨Ne.symm hp, h.nonnull⟩

/-- An address that is given back is no longer tracked. -/
theorem remove (h : Backing s) (hall : s'.allBlocks = s.allBlocks.erase p)
    (hlive : Pool.live s'.calls = (Pool.live s.calls).erase p) : Backing s' := by
  refine ⟨?_, ?_, ?_⟩
  · intro q hq
    rw [hall, AList.mem_erase] at hq
    rw [hlive]
    exact (List.mem_erase_of_ne hq.1).mpr (h.live q hq.2)
  · rw [hlive]
    exact h.nodup.erase p
  · rw [hall, AList.mem_erase]
    exact fun hnull => h.nonnull hnull.2

end Backing

@[simp] theorem live_malloc_kSuccess (stream : Option Stream) (n : ℕ) (out : Ptr)
    (calls : List BackendCall) :
    live (.malloc stream n kSuccess out :: calls) = out :: live calls := if_pos rfl

@[simp] theorem live_free_kSuccess (stream : Option Stream) (p : Ptr) (calls : List BackendCall) :
    live (.free stream p kSuccess :: calls) = (live calls).erase p := if_pos rfl

theorem live_malloc_of_ne {status : Error} (h : status ≠ kSuccess) (stream : Option Stream) (n : ℕ)
    (out : Ptr) (calls : List BackendCall) :
    live (.malloc stream n status out :: calls) = live calls := if_neg h

theorem live_free_of_ne {status : Error} (h : status ≠ kSuccess) (stream : Option Stream) (p : Ptr)
    (calls : List BackendCall) : live (.free stream p status :: calls) = live calls := if_neg h

/-- What a failed allocation leaves behind: nothing, unless the backend refuses to take back the
memory it has just handed out. -/
theorem FailedCalls.live (h : FailedCalls ans s s') (hout : ans.backend.out ∉ live s.calls) :
    live s'.calls = live s.calls ∨
      ans.cleanup ≠ kSuccess ∧ live s'.calls = ans.backend.out :: live s.calls := by
  rcases h with h | ⟨n, ⟨hstatus, -, h⟩ | ⟨-, h⟩⟩
  · exact .inl (by rw [h])
  · exact .inl (by rw [h, live_malloc_of_ne hstatus])
  · rw [h]
    by_cases hstatus : ans.backend.status = kSuccess <;>
      by_cases hclean : ans.cleanup = kSuccess
    · exact .inl (by simp [hstatus, hclean])
    · exact .inr ⟨hclean, by rw [live_free_of_ne hclean, hstatus, live_malloc_kSuccess]⟩
    · refine .inl ?_
      rw [hclean, live_free_kSuccess, live_malloc_of_ne hstatus, List.erase_of_not_mem hout]
    · exact .inl (by rw [live_free_of_ne hclean, live_malloc_of_ne hstatus])

/-! ### Soundness -/

/-- **What holds of a state between two operations**, when `held` lists the blocks held outside
it. -/
structure Sound (held : List BlockId) (s : State) : Prop where
  placement : Placement s
  pins : Pins held s
  backing : Backing s

/-- What the environment promises a state about one allocation. -/
structure State.Fresh (s : State) (ans : AllocAnswer) : Prop where
  block : ∀ b, ans.makeShared = some b → ¬ s.Tracked b
  nonnull : ans.backend.status = kSuccess → ans.backend.out ≠ nullptr
  address : ans.backend.out ∉ live s.calls

namespace Sound

/-- An address of the backend that is not handed out is not tracked. -/
theorem notMem_allBlocks (h : Sound held s) (hans : s.Fresh ans) :
    ans.backend.out ∉ s.allBlocks :=
  fun hmem => hans.address (h.backing.live _ hmem)

theorem unclaimed (h : Sound held s) (hans : s.Fresh ans) : s.Unclaimed ans where
  nonnull := hans.nonnull
  address := h.notMem_allBlocks hans
  block b hb := fun hmem => hans.block b hb (h.placement.mem_large.mp hmem).1

theorem initial (stream : Option Stream) (isNvidia : Bool) :
    Sound [] (State.initial stream isNvidia) := by
  have hnone : ∀ b, ¬ (State.initial stream isNvidia).Tracked b := by
    rintro b ⟨p, hp⟩
    simp [State.initial] at hp
  refine ⟨⟨?_, ?_, ?_, ?_, ?_, ?_⟩, ⟨?_, ?_, ?_, ?_, ?_⟩, ⟨?_, ?_, ?_⟩⟩
  · rfl
  · intro p b hp
    simp [State.initial] at hp
  · exact fun b hb => absurd hb (hnone b)
  · exact fun b hb => absurd hb (hnone b)
  · intro i b
    have hfree : (State.initial stream isNvidia).freeBlocks i = [] := by
      simp only [State.freeBlocks, State.initial, List.getElem?_map]
      cases classSizes[i]? <;> rfl
    rw [hfree, if_neg fun hidle => hnone b hidle.1]
    rfl
  · intro b
    rw [if_neg fun hbulky => hnone b hbulky.1]
    rfl
  · exact List.nodup_nil
  · simp [State.initial]
  · exact fun _ => rfl
  · exact fun b hb => absurd hb (hnone b)
  · simp [State.initial]
  · simp [State.initial]
  · exact List.nodup_nil
  · simp [State.initial]

/-- A successful allocation of a block. -/
theorem allocated (h : Sound held s) (hans : s.Fresh ans)
    (hs : Allocated t ans size isExact s p s') : Sound held s' := by
  have hout := h.notMem_allBlocks hans
  have hclass : ∀ {i}, s.requestClass size isExact = some i → i < s.sizeClasses.length := by
    intro i hi
    cases isExact with
    | true => simp [State.requestClass] at hi
    | false =>
      simp only [State.requestClass, State.findClass, Bool.false_eq_true, if_false] at hi
      exact (List.findIdx?_eq_some_iff_getElem.mp hi).1
  cases hs with
  | reuseClass i b hi hfind =>
    have hb := h.placement.mem_free.mp (List.mem_of_find?_eq_some hfind)
    refine ⟨?_, ?_, ?_⟩
    · refine ((h.placement.freeze t b).stamp b _).reuseClass ?_
      rw [Placement.find?_touched, hfind]
    · exact (((h.pins.freeze t hb.1).stamp b _).setFreeBlocks i _).startUse b
    · exact h.backing.stay (freeze_allBlocks s t b) (by rw [← freeze_calls s t b]; rfl)
  | growClass i b hi hfind hblock hstatus hgrow =>
    have hb := hans.block b hblock
    have htracked : (s.enroll ans.backend b (newBlock (s.blockSize i) .SizeClass i)).Tracked b :=
      (tracked_insert hout (enroll_allBlocks ..) b).mpr (.inl rfl)
    refine ⟨?_, ?_, ?_⟩
    · exact ((h.placement.enrollClass hb hout (hclass hi)).freeze t b).stamp b _
    · exact ((h.pins.enrollBlock _ _ _ hb hout).freeze t htracked).stamp b _
    · exact h.backing.enroll (b := b) hans.address (hans.nonnull hstatus) (by simp)
        (by simp [hstatus])
  | reuseLarge b hi hfind =>
    have hb := h.placement.mem_large.mp (List.mem_of_find?_eq_some hfind)
    refine ⟨?_, ?_, ?_⟩
    · refine ((h.placement.freeze t b).stamp b _).reuseLarge ?_
      rw [← Placement.mem_large ((h.placement.freeze t b).stamp b _)]
      show b ∈ (s.freeze t b).largeBlocks
      rw [freeze_largeBlocks]
      exact List.mem_of_find?_eq_some hfind
    · exact ((h.pins.freeze t hb.1).stamp b _).startUse b
    · exact h.backing.stay (freeze_allBlocks s t b) (by rw [← freeze_calls s t b]; rfl)
  | growLarge b hi hfind hblock hstatus hgrow =>
    have hb := hans.block b hblock
    have htracked : ((s.enroll ans.backend b (newBlock (roundUp size) (requestKind isExact)
        0)).pushLarge b).Tracked b :=
      (tracked_insert hout (enroll_allBlocks ..) b).mpr (.inl rfl)
    refine ⟨?_, ?_, ?_⟩
    · exact ((h.placement.enrollLarge isExact (roundUp size) hb hout).freeze t b).stamp b _
    · exact (((h.pins.enrollBlock _ _ _ hb hout).setLarge _).freeze t htracked).stamp b _
    · exact h.backing.enroll (b := b) hans.address (hans.nonnull hstatus) (by simp)
        (by simp [hstatus])

/-- A failed allocation. -/
theorem untouched (h : Sound held s) (hans : s.Fresh ans) (hs : Untouched ans s s') :
    Sound held s' := by
  refine ⟨h.placement.untouched hs hans.block, h.pins.untouched hs hans.block, ?_⟩
  have hall : s'.allBlocks = s.allBlocks := by rw [hs.rest]
  rcases hs.calls.live hans.address with hlive | ⟨-, hlive⟩
  · exact h.backing.stay hall hlive
  · refine ⟨?_, ?_, ?_⟩
    · intro q hq
      rw [hlive]
      exact List.mem_cons_of_mem _ (h.backing.live q (hall ▸ hq))
    · rw [hlive]
      exact List.nodup_cons.mpr ⟨hans.address, h.backing.nodup⟩
    · rw [hall]
      exact h.backing.nonnull

theorem freeze (h : Sound held s) (t : ThreadId) (hb : s.Tracked b) : Sound held (s.freeze t b) :=
  ⟨h.placement.freeze t b, h.pins.freeze t hb, h.backing.stay (by simp) (by simp)⟩

/-- A `deallocate`. -/
theorem release (h : Sound held s) (hb : s.Tracked b) (huse : (s.blocks b).inUse = true) :
    Sound held (s.release b) := by
  refine ⟨h.placement.release hb huse, h.pins.release b, h.backing.stay ?_ ?_⟩ <;>
    unfold State.release State.giveBack <;> split_ifs <;> rfl

/-- A `retain_allocation`. -/
theorem retain (h : Sound held s) (hb : s.Tracked b) : Sound held (s.retain b) := by
  refine ⟨h.placement.retain hb, h.pins.retain b, h.backing.stay ?_ ?_⟩ <;>
    unfold State.retain <;> split_ifs <;> rfl

theorem openPinMode (h : Sound held s) (t : ThreadId) (hmode : s.pinnedMode = false) :
    Sound held (s.openPinMode t) :=
  ⟨h.placement.openPinMode t, h.pins.openPinMode t hmode, h.backing.stay rfl rfl⟩

theorem closePinMode (h : Sound held s) :
    Sound (s.captureFrozenBlocks ++ held) s.closePinMode :=
  ⟨h.placement.closePinMode, h.pins.closePinMode, h.backing.stay rfl rfl⟩

theorem cancel (h : Sound held s) :
    Sound held (s.releaseFrozenBlocks s.captureFrozenBlocks).closePinMode := by
  refine ⟨(h.placement.releaseFrozenBlocks _).closePinMode, h.pins.cancel, ?_⟩
  rw [releaseFrozenBlocks_eq]
  exact h.backing.stay rfl rfl

/-- Holders outside the state drop the pins of `l`. -/
theorem dropHeld (h : Sound held s) {l : List BlockId} (hl : held.Perm (l ++ held')) :
    Sound held' (s.releaseFrozenBlocks l) := by
  refine ⟨h.placement.releaseFrozenBlocks l, h.pins.dropHeld hl, ?_⟩
  rw [releaseFrozenBlocks_eq]
  exact h.backing.stay rfl rfl

theorem perm (h : Sound held s) (hp : held.Perm held') : Sound held' s :=
  ⟨h.placement, h.pins.perm hp, h.backing⟩

theorem trimStep (h : Sound held s) (hs : TrimStep s s') : Sound held s' := by
  refine ⟨h.placement.trimStep hs, h.pins.trimStep h.placement hs, ?_⟩
  cases hs with
  | free hlist hpin => exact h.backing.remove rfl (live_free_kSuccess ..)
  | large hlist hpin huse => exact h.backing.remove rfl (live_free_kSuccess ..)
  | refused hb hstatus => exact h.backing.stay rfl (live_free_of_ne hstatus ..)

/-- A `trim`, also one that throws midway. -/
theorem trimSteps (h : Sound held s) (hs : TrimSteps s s') : Sound held s' := by
  induction hs with
  | refl => exact h
  | tail _ hlast ih => exact ih.trimStep hlast

end Sound

end InfiniRT.Pool
