import InfiniRT.Pool.LeaseContents
import InfiniRT.Pool.Lives

/-!
# The answer of `retain_for_capture`

The answer is a comparison of a block's generation stamp with the generation of the transaction.
Over a run the stamp of a tracked block is the current generation exactly if the last allocation
that returned its address was made by the thread that has the transaction open, after it opened it.
Proved:

* **`capture_answer`** — the answer is `false` exactly if the last allocation that returned the
  address was made inside the open transaction, by its thread.
-/

namespace InfiniRT.Pool

open InfiniRT.Library

variable {w w' : World} {e : Event} {o : Outcome} {x : Event × Outcome} {s s' : State}
  {b : BlockId} {p : Ptr} {t t' : ThreadId} {trace before since : List (Event × Outcome)}

/-- A successful `begin_pin_mode`. -/
def opensTransaction : Event × Outcome → Bool
  | (.beginPinMode _, .ok _) => true
  | _ => false

/-- The thread of the last `allocate` or `allocate_exact` that returned `p`. -/
def lastGrant (p : Ptr) (trace : List (Event × Outcome)) : Option ThreadId :=
  trace.reverse.findSome? (grantedTo p)

theorem lastGrant_concat (p : Ptr) (trace : List (Event × Outcome)) (x : Event × Outcome) :
    lastGrant p (trace ++ [x]) = (grantedTo p x).or (lastGrant p trace) := by
  rw [lastGrant, List.reverse_concat, List.findSome?_cons, lastGrant]
  cases grantedTo p x <;> rfl

/-- `since` is what happened since the thread opened its transaction, which it has not ended. -/
structure Opened (t : ThreadId) (trace since : List (Event × Outcome)) : Prop where
  split : ∃ before, trace = before ++ (.beginPinMode t, .ok .none) :: since
  opens : ∀ x ∈ since, opensTransaction x = false
  ends : ∀ x ∈ since, endsTransaction t x = false

theorem Opened.concat (h : Opened t trace since) (hopens : opensTransaction x = false)
    (hends : endsTransaction t x = false) : Opened t (trace ++ [x]) (since ++ [x]) := by
  obtain ⟨before, rfl⟩ := h.split
  refine ⟨⟨before, by simp⟩, fun y hy => ?_, fun y hy => ?_⟩ <;>
    rcases List.mem_append.mp hy with hy | hy
  · exact h.opens y hy
  · rwa [List.mem_singleton.mp hy]
  · exact h.ends y hy
  · rwa [List.mem_singleton.mp hy]

theorem opened_nil (t : ThreadId) (trace : List (Event × Outcome)) :
    Opened t (trace ++ [(.beginPinMode t, .ok .none)]) [] :=
  ⟨⟨trace, rfl⟩, by simp, by simp⟩

/-! ### Who has the transaction open -/

theorem ownsPinMode_of_transaction (h : s'.transaction = s.transaction)
    (howner : s'.OwnsPinMode t) : s.OwnsPinMode t := by
  have hmode : s'.pinnedMode = s.pinnedMode := congrArg Transaction.pinnedMode h
  have hpin : s'.pinOwner = s.pinOwner := congrArg Transaction.pinOwner h
  exact ⟨hmode ▸ howner.1, hpin ▸ howner.2⟩

/-- How a thread comes to have a transaction open: it had it, and the event neither opened nor ended
it, or the event opened it. -/
inductive Owning (w : World) (x : Event × Outcome) (w' : World) (t : ThreadId) : Prop
  | still (howner : w.state.OwnsPinMode t)
      (hgen : w'.state.captureGeneration = w.state.captureGeneration)
      (hopens : opensTransaction x = false) (hends : endsTransaction t x = false)
  | opened (hx : x = (.beginPinMode t, .ok .none))
      (hgen : w'.state.captureGeneration = w.state.captureGeneration + 1)

theorem Owning.of_transaction (h : w'.state.transaction = w.state.transaction)
    (howner : w'.state.OwnsPinMode t) (hopens : opensTransaction x = false)
    (hends : endsTransaction t x = false) : Owning w x w' t :=
  .still (ownsPinMode_of_transaction h howner) (congrArg Transaction.captureGeneration h) hopens
    hends

theorem Owning.of_freeze (h : w'.state.transaction = (w.state.freeze t' b).transaction)
    (howner : w'.state.OwnsPinMode t) (hopens : opensTransaction x = false)
    (hends : endsTransaction t x = false) : Owning w x w' t := by
  have hfrozen := ownsPinMode_of_transaction h howner
  have hgen : w'.state.captureGeneration = _ := congrArg Transaction.captureGeneration h
  refine .still ⟨?_, ?_⟩ (hgen.trans (freeze_captureGeneration _ _ _)) hopens hends
  · exact (freeze_pinnedMode _ _ _).symm.trans hfrozen.1
  · exact (freeze_pinOwner _ _ _).symm.trans hfrozen.2

theorem opensTransaction_error (e : Event) (y : Exn) : opensTransaction (e, .error y) = false := by
  cases e <;> rfl

theorem endsTransaction_error (t : ThreadId) (e : Event) (y : Exn) :
    endsTransaction t (e, .error y) = false := by
  cases e <;> rfl

theorem Effect.owning (h : Invariant w) (henabled : w.Enabled e) (he : Effect w e o w')
    (howner : w'.state.OwnsPinMode t) : Owning w (e, o) w' t := by
  cases he with
  | failed hreq y hs =>
    exact .of_transaction hs.transaction howner (opensTransaction_error _ _)
      (endsTransaction_error _ _ _)
  | @allocated e t' size isExact ans p s' hreq hs =>
    have hans := (hreq.answers henabled).2
    obtain ⟨b, hserved⟩ := hs.served (h.sound (h.closed_of_enabled henabled)) hans.fresh
    cases hreq <;> exact .of_freeze hserved.transaction howner rfl rfl
  | rejected y he =>
    exact .still howner rfl (opensTransaction_error _ _) (endsTransaction_error _ _ _)
  | released => exact .of_transaction (release_transaction _ _) howner rfl rfl
  | retained => exact .of_transaction (retain_transaction _ _) howner rfl rfl
  | @began t' hmode hgen =>
    obtain rfl : t' = t := Option.some.inj howner.2
    exact .opened rfl rfl
  | nothingToCommit hmode => exact absurd (hmode.symm.trans howner.1) (by simp)
  | committed => exact nomatch howner.1
  | dropped => exact .of_transaction (releaseFrozenBlocks_transaction ..) howner rfl rfl
  | handled => exact .of_transaction (releaseFrozenBlocks_transaction ..) howner rfl rfl
  | canceled => exact nomatch howner.1
  | frozen => exact .of_freeze rfl howner rfl rfl
  | trimmed trimAns o hs => exact .of_transaction hs.transaction howner rfl rfl
  | leaseDropped =>
    exact .of_transaction ((closeIfUnowned_transaction ..).trans
      (releaseFrozenBlocks_transaction ..)) howner rfl rfl
  | poolDropped => exact .of_transaction (closeIfUnowned_transaction ..) howner rfl rfl
  | _ => exact .still howner rfl rfl rfl

/-! ### Stamps over a run -/

/-- What the stamps say after a run. -/
structure Stamped (trace : List (Event × Outcome)) (w : World) : Prop where
  invariant : Invariant w
  positive : w.state.pinnedMode = true → 0 < w.state.captureGeneration
  past : ∀ p b, w.state.allBlocks.lookup p = some b →
    (w.state.blocks b).allocationCaptureGeneration ≤ w.state.captureGeneration
  opened : ∀ t, w.state.OwnsPinMode t → ∃ since, Opened t trace since ∧
    ∀ p b, w.state.allBlocks.lookup p = some b →
      ((w.state.blocks b).allocationCaptureGeneration = w.state.captureGeneration ↔
        lastGrant p since = some t)

theorem generationFor_le (s : State) (t : ThreadId) : s.generationFor t ≤ s.captureGeneration := by
  unfold State.generationFor
  split_ifs
  · exact Nat.le_refl _
  · exact Nat.zero_le _

/-- Only the thread with the transaction open stamps with its generation. -/
theorem generationFor_eq_iff (howner : s.OwnsPinMode t) (hpos : 0 < s.captureGeneration) :
    s.generationFor t' = s.captureGeneration ↔ t' = t := by
  unfold State.generationFor
  constructor
  · intro hgen
    split_ifs at hgen with howner'
    · exact owner_unique howner howner'
    · omega
  · rintro rfl
    rw [if_pos howner]

theorem Stamped.step (h : Stamped trace w) (hstep : Step w x w') : Stamped (trace ++ [x]) w' := by
  obtain ⟨e, o⟩ := x
  have hinv := h.invariant
  have hinv' := hinv.step hstep
  have heffect := hinv.effect_of_step hstep
  have hlife : ∀ {p b}, w'.state.allBlocks.lookup p = some b → Life w (e, o) w' p b :=
    fun hb => heffect.life hinv hstep.1 (hinv'.ne_nullptr hb) hb
  refine ⟨hinv', fun hmode => ?_, fun p b hb => ?_, fun t howner => ?_⟩
  · rcases heffect.generation hinv hstep.1 with ⟨hgen, hback⟩ | hgen
    · rw [hgen]
      exact h.positive (hback hmode)
    · omega
  · refine Nat.le_trans ?_ (heffect.captureGeneration_le hinv hstep.1)
    cases hlife hb with
    | on hold _ hstamp =>
      rw [hstamp]
      split
      · exact generationFor_le _ _
      · exact h.past p b hold
    | born _ _ hstamp =>
      rw [hstamp]
      exact generationFor_le _ _
  · cases heffect.owning hinv hstep.1 howner with
    | still howner₀ hgen hopens hends =>
      obtain ⟨since, hopened, hstamps⟩ := h.opened t howner₀
      have hpos := h.positive howner₀.1
      refine ⟨since ++ [(e, o)], hopened.concat hopens hends, fun p b hb => ?_⟩
      rw [lastGrant_concat, hgen]
      cases hlife hb with
      | on hold _ hstamp =>
        rw [hstamp]
        cases grantedTo p (e, o) with
        | none => exact hstamps p b hold
        | some t' =>
          rw [Option.some_or, Option.some.injEq]
          exact generationFor_eq_iff howner₀ hpos
      | born _ hgranted hstamp =>
        rw [hstamp, hgranted, Option.some_or, Option.some.injEq]
        exact generationFor_eq_iff howner₀ hpos
    | opened hx hgen =>
      obtain ⟨rfl, rfl⟩ := Prod.mk.inj hx
      -- No block carries the stamp of a transaction that has just been opened.
      refine ⟨[], opened_nil t trace, fun p b hb => ?_⟩
      cases hlife hb with
      | on hold _ hstamp =>
        have hstamp : (w'.state.blocks b).allocationCaptureGeneration = _ := hstamp
        have hle := h.past p b hold
        simp only [grantedTo] at hstamp
        constructor
        · omega
        · intro hlast
          cases hlast
      | born _ hgranted => cases hgranted

theorem stamped_of_run (h : PoolRun trace w) : Stamped trace w := by
  obtain ⟨stream, isNvidia, hrun⟩ := h
  refine hrun.history Stamped (fun _ _ _ _ hs hstep => hs.step hstep)
    ⟨.initial stream isNvidia, ?_, ?_, ?_⟩
  · intro hmode
    cases hmode
  · intro p b hb
    rw [show (World.initial stream isNvidia).state.allBlocks = ∅ from rfl,
      AList.lookup_empty] at hb
    cases hb
  · intro t howner
    exact nomatch howner.1

/-- **The answer of `retain_for_capture`.** In any run in which it succeeds on the thread `t`, the
thread has a transaction open, and the answer is `false` exactly if the last allocation, by any
thread, that returned the address since then exists and was made by `t`. -/
theorem capture_answer {freezeAns : FreezeAnswer} {flag : Bool} (h : PoolRun trace w)
    (hstep : Step w (.retainForCapture t p freezeAns, .ok (.flag flag)) w') :
    ∃ since, Opened t trace since ∧ (flag = false ↔ lastGrant p since = some t) := by
  have hstamped := stamped_of_run h
  have hperform := hstep.2
  simp only [World.perform] at hperform
  rcases retainForCapture_run t freezeAns p w.state with ⟨y, hrun⟩ | ⟨b, howner, hlookup, hrun⟩ <;>
    rw [call_eq hrun] at hperform
  · cases hperform
  · obtain ⟨since, hopened, hstamps⟩ := hstamped.opened t howner
    refine ⟨since, hopened, ?_⟩
    have hflag : decide (((w.state.freeze t b).blocks b).allocationCaptureGeneration ≠
        (w.state.freeze t b).captureGeneration) = flag := by
      cases hperform
      rfl
    rw [← hstamps p b hlookup, ← hflag, freeze_captureGeneration,
      (freeze_sameStamp w.state t b b).2, decide_eq_false_iff_not, not_not]

/-- A block allocated before the transaction of thread 7, given back and allocated again in it. -/
def recycledEvents : List Event :=
  [.allocate 7 100 (.granting 1 4096), .beginPinMode 7, .deallocate 8 4096 true,
    .allocate 7 50 (.granting 2 8192)]

/-- The pool after these events. -/
def recycledPool : World := ((World.initial none false).runEvents recycledEvents).1

theorem capture_answer_of_recycled :
    ∃ since, Opened 7 ((World.initial none false).runEvents recycledEvents).2 since ∧
      (false = false ↔ lastGrant 4096 since = some 7) :=
  capture_answer (poolRun_runEvents (by decide) : PoolRun _ recycledPool)
    (⟨by decide, rfl⟩ : Step recycledPool
      (.retainForCapture 7 4096 ⟨true, true⟩, .ok (.flag false)) _)

end InfiniRT.Pool
