import InfiniRT.Pool.Trim

/-!
# The logical owners of a block

The ledger decides what the pool may do with a block.  While it is positive the block is skipped;
the `deallocate` that brings it to zero puts the block where the next fitting request finds it, and,
if it is not pinned, where the next `trim` gives it back.  Proved:

* **`ledgered_of_run`** — since a time when its address was not tracked, the `use_count` of a block
  is the ledger of the address, and the ledger alone decides when the block may be reused and
  trimmed;
* **`recycles_of_invariant`** — a request returns a block that may be reused and fits, and a new one
  only when there is none; `trim` gives back the blocks that may be trimmed and no other;
* **`logical_owner_ledger`** — both, with the exact conditions under which `deallocate` and
  `retain_allocation` throw.
-/

namespace InfiniRT.Pool

open InfiniRT.Library

variable {w w' w₀ : World} {e : Event} {o : Outcome} {x : Event × Outcome} {s s' : State}
  {b c : BlockId} {p : Ptr} {t : ThreadId} {size : ℕ} {isExact : Bool} {ans : AllocAnswer}
  {before since : List (Event × Outcome)}

/-! ### The block at an address -/

/-- What the ledger says of a block since a time when its address was not tracked. -/
structure Ledgered (since : List (Event × Outcome)) (w : World) (p : Ptr) (b : BlockId) :
    Prop where
  count : ((w.state.blocks b).useCount : ℤ) = ledger p since
  reusable : w.state.Reusable b ↔ ledger p since = 0
  trimmable : w.state.Trimmable b ↔ ledger p since = 0 ∧ (w.state.blocks b).pinCount = 0
  /-- It becomes reusable at the `deallocate` of its last owner, and at nothing else. -/
  becomes : ∀ x w', Step w x w' → w'.state.allBlocks.lookup p = some b → ¬ w.state.Reusable b →
    (w'.state.Reusable b ↔ isRelease p x = true ∧ ledger p since = 1)
  /-- It ceases to be reusable at the next call that returns or retains it, and at nothing else. -/
  ceases : ∀ x w', Step w x w' → w'.state.allBlocks.lookup p = some b → w.state.Reusable b →
    (¬ w'.state.Reusable b ↔ isGrant p x = true ∨ isRetain p x = true)

theorem not_grant_of_release (h : isRelease p x) : ¬(isGrant p x = true ∨ isRetain p x = true) := by
  obtain ⟨e, o⟩ := x
  cases e <;> simp_all [isRelease, isGrant, isRetain]

/-- A block may be reused after a step exactly if the step leaves it no owner. -/
theorem reusable_after (h : Invariant w) (hstep : Step w x w')
    (hb : w.state.allBlocks.lookup p = some b) (hb' : w'.state.allBlocks.lookup p = some b) :
    w'.state.Reusable b ↔ ((w.state.blocks b).useCount : ℤ) +
      (if isGrant p x ∨ isRetain p x then 1 else if isRelease p x then -1 else 0) = 0 := by
  have hcount := useCount_step h hstep hb hb'
  rw [ledgerChange_eq] at hcount
  rw [(h.step hstep).placement.reusable_iff ⟨p, hb'⟩, ← hcount]
  exact Int.natCast_eq_zero.symm

theorem becomes_reusable_iff (h : Invariant w) (hstep : Step w x w')
    (hb : w.state.allBlocks.lookup p = some b) (hb' : w'.state.allBlocks.lookup p = some b)
    (howned : ¬ w.state.Reusable b) :
    w'.state.Reusable b ↔ isRelease p x = true ∧ (w.state.blocks b).useCount = 1 := by
  rw [h.placement.reusable_iff ⟨p, hb⟩] at howned
  rw [reusable_after h hstep hb hb']
  constructor
  · intro hzero
    split_ifs at hzero with hgrant hrelease
    · omega
    · exact ⟨hrelease, by omega⟩
    · omega
  · rintro ⟨hrelease, hone⟩
    rw [if_neg (not_grant_of_release hrelease), if_pos hrelease]
    omega

theorem ceases_reusable_iff (h : Invariant w) (hstep : Step w x w')
    (hb : w.state.allBlocks.lookup p = some b) (hb' : w'.state.allBlocks.lookup p = some b)
    (hidle : w.state.Reusable b) :
    ¬ w'.state.Reusable b ↔ isGrant p x = true ∨ isRetain p x = true := by
  rw [h.placement.reusable_iff ⟨p, hb⟩] at hidle
  rw [reusable_after h hstep hb hb']
  constructor
  · intro hne
    split_ifs at hne with hgrant hrelease
    · exact hgrant
    · exact absurd (useCount_of_release h hstep hrelease hb) (by omega)
    · omega
  · intro hgrant
    rw [if_pos hgrant]
    omega

theorem ledgered_of_run (h : Invariant w₀) (hrun : Run Step w₀ since w)
    (hnew : w₀.state.allBlocks.lookup p = none) (hb : w.state.allBlocks.lookup p = some b) :
    Ledgered since w p b := by
  have hinv : Invariant w := hrun.invariant Invariant (fun _ _ _ hi hs => hi.step hs) h
  have hcount : ((w.state.blocks b).useCount : ℤ) = ledger p since := by
    have hlaw := useCountAt_of_run h hrun (hinv.ne_nullptr hb)
    rw [useCountAt_of_lookup hb, useCountAt_of_untracked hnew] at hlaw
    omega
  refine ⟨hcount, ?_, ?_, fun x w' hstep hb' howned => ?_,
    fun x w' hstep hb' hidle => ceases_reusable_iff hinv hstep hb hb' hidle⟩
  · rw [hinv.placement.reusable_iff ⟨p, hb⟩, ← hcount]
    omega
  · rw [hinv.placement.trimmable_iff ⟨p, hb⟩, ← hcount]
    omega
  · rw [becomes_reusable_iff hinv hstep hb hb' howned, ← hcount]
    exact and_congr_right fun _ => by omega

/-! ### What a request does with the blocks that may be reused -/

/-- A block that may be reused is an idle block of its class's free list, or of the large list. -/
theorem Placement.mem_of_reusable (h : Placement s) (hb : s.Reusable b) :
    ((s.blocks b).kind = .SizeClass → b ∈ s.freeBlocks (s.blocks b).classIndex) ∧
      ((s.blocks b).kind ≠ .SizeClass → b ∈ s.largeBlocks) := by
  obtain ⟨⟨i, hfree⟩ | hlarge, -⟩ := hb
  · have hidle := h.mem_free.mp hfree
    exact ⟨fun _ => hidle.2.2.1 ▸ hfree, fun hkind => absurd hidle.2.1 hkind⟩
  · exact ⟨fun hkind => absurd hkind (h.mem_large.mp hlarge).2, fun _ => hlarge⟩

/-- The search of a request stops somewhere if there is a block that may be reused and fits. -/
theorem Placement.found_of_chosen (h : Placement s) (hb : s.Reusable b)
    (hchosen : Chosen size isExact s b) :
    (∃ i c, s.requestClass size isExact = some i ∧
      (s.freeBlocks i).find? (fun c => !(s.blocks c).inUse) = some c) ∨
    ∃ c, s.requestClass size isExact = none ∧
      s.largeBlocks.find? (fun c => fitsLarge (roundUp size) isExact (s.blocks c)) = some c := by
  obtain ⟨hfree, hlarge⟩ := h.mem_of_reusable hb
  rcases hchosen.kind with ⟨hkind, hclass⟩ | ⟨hclass, hfits⟩
  · have hsome : ((s.freeBlocks (s.blocks b).classIndex).find?
        (fun c => !(s.blocks c).inUse)).isSome := by
      rw [List.find?_isSome]
      exact ⟨b, hfree hkind, by rw [hchosen.idle]; rfl⟩
    obtain ⟨c, hc⟩ := Option.isSome_iff_exists.mp hsome
    exact .inl ⟨_, c, hclass, hc⟩
  · have hkind : (s.blocks b).kind ≠ .SizeClass := by
      simp only [fitsLarge, Bool.and_eq_true, decide_eq_true_eq] at hfits
      rw [hfits.1.2]
      cases isExact <;> decide
    have hsome : (s.largeBlocks.find?
        (fun c => fitsLarge (roundUp size) isExact (s.blocks c))).isSome := by
      rw [List.find?_isSome]
      exact ⟨b, hlarge hkind, hfits⟩
    obtain ⟨c, hc⟩ := Option.isSome_iff_exists.mp hsome
    exact .inr ⟨c, hclass, hc⟩

/-- What a request returned could be reused and fits, or is new because no such block was there. -/
theorem Allocated.origin {held : List BlockId} (h : Sound held s) (hans : s.Fresh ans)
    (hs : Allocated t ans size isExact s p s') :
    (∃ b, s.allBlocks.lookup p = some b ∧ s.Reusable b ∧ Chosen size isExact s b) ∨
      s.allBlocks.lookup p = none ∧ ∀ b, s.Reusable b → ¬Chosen size isExact s b := by
  obtain ⟨b, hsupplied⟩ := hs.supplied h hans
  rcases hsupplied.origin with ⟨hlookup, hchosen, -⟩ | ⟨hnew, -⟩
  · refine .inl ⟨b, hlookup, ?_, hchosen⟩
    rw [h.placement.reusable_iff ⟨p, hlookup⟩]
    exact h.placement.useCount_eq_zero ⟨p, hlookup⟩ hchosen.idle
  · refine .inr ⟨hnew, fun c hc hchosen => ?_⟩
    have hfound := h.placement.found_of_chosen hc hchosen
    cases hs with
    | reuseClass i c hclass hfind =>
      have hidle := h.placement.mem_free.mp (List.mem_of_find?_eq_some hfind)
      rw [h.placement.lookup_ptr hidle.1] at hnew
      cases hnew
    | reuseLarge c hclass hfind =>
      have hbulky := h.placement.mem_large.mp (List.mem_of_find?_eq_some hfind)
      rw [h.placement.lookup_ptr hbulky.1] at hnew
      cases hnew
    | growClass i c hclass hfind => simp [hclass, hfind] at hfound
    | growLarge c hclass hfind => simp [hclass, hfind] at hfound

/-- A request that finds a block is served with it, and does not reach the backend. -/
theorem allocateImpl_of_reusable (h : Placement s) (t : ThreadId) (hfreeze : ans.freeze.granted)
    (hsize : size ≠ 0) (hbig : Addressable size) (hb : s.Reusable b)
    (hchosen : Chosen size isExact s b) :
    ∃ p s', (allocateImpl t ans size isExact).run s = (.ok p, s') ∧ s'.calls = s.calls ∧
      Allocated t ans size isExact s p s' := by
  rcases h.found_of_chosen hb hchosen with ⟨i, c, hclass, hfind⟩ | ⟨c, hclass, hfind⟩
  · rw [allocateImpl_of_class hsize hbig hclass, allocateFromClass_found hfind]
    rcases reuseClassBlock_run t ans i (s.generationFor t) c s with hok | ⟨hdenied, -⟩
    · exact ⟨_, _, hok, freeze_calls s t c, .reuseClass i c hclass hfind⟩
    · exact absurd hfreeze hdenied
  · rw [allocateImpl_of_large hsize hbig hclass, allocateFromLarge_found hfind]
    rcases reuseLargeBlock_run t ans (s.generationFor t) c s with hok | ⟨hdenied, -⟩
    · exact ⟨_, _, hok, freeze_calls s t c, .reuseLarge c hclass hfind⟩
    · exact absurd hfreeze hdenied

/-- `allocate` and `allocate_exact` behind the device guard. -/
theorem perform_of_request (hreq : e.Requests t size isExact ans) (hguard : ans.guard = true) :
    w.perform e = w.call (allocateImpl t ans size isExact) .pointer := by
  cases hreq <;> simp [World.perform, World.call, allocate, allocateExact, guarded_run, hguard]

/-! ### Requests and `trim` -/

/-- The pool takes the blocks that may be reused first, and gives back those that may be trimmed. -/
structure Recycles (w : World) : Prop where
  /-- What a request returns could be reused and fits, or is new because no such block was there. -/
  takes : ∀ e t size isExact ans p w', e.Requests t size isExact ans →
    Step w (e, .ok (.pointer p)) w' → p ≠ nullptr →
      (∃ b, w.state.allBlocks.lookup p = some b ∧ w.state.Reusable b ∧
        Chosen size isExact w.state b) ∨
      w.state.allBlocks.lookup p = none ∧
        ∀ b, w.state.Reusable b → ¬Chosen size isExact w.state b
  /-- If there is such a block, a request is served with one and the backend is not called. -/
  finds : ∀ e t size isExact ans b, e.Requests t size isExact ans → w.Enabled e →
    ans.guard = true → ans.freeze.granted → size ≠ 0 → Addressable size →
      w.state.Reusable b → Chosen size isExact w.state b →
      ∃ p c w', Step w (e, .ok (.pointer p)) w' ∧ w'.state.calls = w.state.calls ∧
        w.state.allBlocks.lookup p = some c ∧ w.state.Reusable c ∧ Chosen size isExact w.state c
  /-- A `trim` takes away no other block than those that may be trimmed, and one that returns has
  taken away all of them. -/
  trims : ∀ t ans o w' p b, Step w (.trim t ans, o) w' → w.state.allBlocks.lookup p = some b →
    (w'.state.allBlocks.lookup p ≠ some b → w.state.Trimmable b) ∧
      ∀ v, o = .ok v → w.state.Trimmable b → w'.state.allBlocks.lookup p = none

/-- `trim` gives back the blocks that may be trimmed. -/
theorem mem_trimOrder_iff_trimmable (h : Placement s) (hb : s.Tracked b) :
    b ∈ s.trimOrder ↔ s.Trimmable b := by
  rw [mem_trimOrder h, h.trimmable_iff hb]
  constructor
  · rintro ⟨-, hidle, hpin⟩
    exact ⟨h.useCount_eq_zero hb hidle, hpin⟩
  · rintro ⟨hzero, hpin⟩
    exact ⟨hb, ((h.reusable_iff hb).mpr hzero).2, hpin⟩

theorem trims_trimmable (h : Placement w.state) {ans : TrimAnswer}
    (hstep : Step w (.trim t ans, o) w') (hb : w.state.allBlocks.lookup p = some b) :
    (w'.state.allBlocks.lookup p ≠ some b → w.state.Trimmable b) ∧
      ∀ v, o = .ok v → w.state.Trimmable b → w'.state.allBlocks.lookup p = none := by
  rw [← mem_trimOrder_iff_trimmable h ⟨p, hb⟩]
  have hperform := hstep.2
  cases hguard : ans.guard with
  | false =>
    rw [trim_perform (trim_unguarded hguard)] at hperform
    cases hperform
    exact ⟨fun hgone => absurd hb hgone, nofun⟩
  | true =>
    obtain ⟨r, s', hrun, -, htrim⟩ := trim_exact_run ans hguard h
    rw [trim_perform hrun] at hperform
    cases hperform
    cases htrim with
    | all _ hs =>
      refine ⟨fun hgone => ?_, fun v _ hmem => ?_⟩
      · by_contra hnot
        exact hgone ((hs.lookup p b).mpr ⟨hb, hnot⟩)
      · refine Option.eq_none_iff_forall_ne_some.mpr fun c hc => ?_
        obtain ⟨hc, hkept⟩ := (hs.lookup p c).mp hc
        obtain rfl := Option.some.inj (hb.symm.trans hc)
        exact hkept hmem
    | @stopped before after c s₁ y horder _ _ hs =>
      refine ⟨fun hgone => ?_, nofun⟩
      by_contra hnot
      refine hgone ((hs.lookup p b).mpr ⟨hb, fun hmem => hnot ?_⟩)
      rw [horder]
      exact List.mem_append_left _ hmem

/-- **What may be reused is reused, and what may be trimmed is trimmed.** -/
theorem recycles_of_invariant (h : Invariant w) : Recycles w where
  takes e t size isExact ans p w' hreq hstep hp := by
    have hsound := h.sound (h.closed_of_enabled hstep.1)
    have hans := (hreq.answers hstep.1).2
    cases h.effect_of_step hstep with
    | null => exact absurd rfl hp
    | @allocated e t' size' isExact' ans' p s' hreq' hs =>
      obtain ⟨rfl, rfl, rfl, rfl⟩ : t' = t ∧ size' = size ∧ isExact' = isExact ∧ ans' = ans := by
        cases hreq <;> cases hreq' <;> exact ⟨rfl, rfl, rfl, rfl⟩
      exact hs.origin hsound hans.fresh
    | trimmed => cases hreq
  finds e t size isExact ans b hreq henabled hguard hfreeze hsize hbig hb hchosen := by
    have hsound := h.sound (h.closed_of_enabled henabled)
    have hans := (hreq.answers henabled).2
    obtain ⟨p, s', hrun, hcalls, hs⟩ :=
      allocateImpl_of_reusable h.placement t hfreeze hsize hbig hb hchosen
    rcases hs.origin hsound hans.fresh with ⟨c, hc⟩ | ⟨-, hnone⟩
    · exact ⟨p, c, _, ⟨henabled, (perform_of_request hreq hguard).trans (call_eq hrun)⟩, hcalls, hc⟩
    · exact absurd hchosen (hnone b hb)
  trims t ans o w' p b hstep hb := trims_trimmable h.placement hstep hb

/-! ### Releases and retentions -/

/-- `deallocate` throws on an address without an owner, and only there. -/
theorem deallocate_throws_iff (hplace : Placement w.state) (t : ThreadId) (p : Ptr) :
    ((∃ x, (w.perform (.deallocate t p true)).2 = .error x) ↔
      p ≠ nullptr ∧ w.state.useCountAt p = 0) ∧
    ∀ x, (w.perform (.deallocate t p true)).2 = .error x →
      (w.perform (.deallocate t p true)).1 = w := by
  simp only [World.perform]
  by_cases hp : p = nullptr
  · subst hp
    rw [call_eq (deallocate_null true w.state)]
    simp [Except.map]
  · cases hlookup : w.state.allBlocks.lookup p with
    | none =>
      rw [call_eq (deallocate_untracked true hp hlookup), useCountAt_of_untracked hlookup]
      simp [Except.map, hp]
    | some b =>
      have howners := hplace.owners b ⟨p, hlookup⟩
      rw [useCountAt_of_lookup hlookup]
      by_cases hzero : (w.state.blocks b).useCount = 0
      · rw [call_eq (deallocate_unowned true hp hlookup (.inr hzero))]
        simp [Except.map, hp, hzero]
      · have hpos := Nat.pos_of_ne_zero hzero
        rcases deallocate_owned true hp hlookup (howners.mpr hpos) hpos with hrun | ⟨hfalse, -⟩
        · rw [call_eq hrun]
          simp [Except.map, hzero]
        · cases hfalse

/-- `retain_allocation` throws on an untracked address, and only there. -/
theorem retainAllocation_throws_iff (w : World) (t : ThreadId) (p : Ptr) :
    ((∃ x, (w.perform (.retainAllocation t p)).2 = .error x) ↔
      w.state.allBlocks.lookup p = none) ∧
    (∀ x, (w.perform (.retainAllocation t p)).2 = .error x →
      (w.perform (.retainAllocation t p)).1 = w) ∧
    ∀ b, w.state.allBlocks.lookup p = some b →
      (w.perform (.retainAllocation t p)).2 = .ok (.size (w.state.blocks b).size) := by
  simp only [World.perform]
  cases hlookup : w.state.allBlocks.lookup p with
  | none =>
    rw [call_eq (retainAllocation_untracked hlookup)]
    simp [Except.map]
  | some b =>
    rw [call_eq (retainAllocation_tracked hlookup)]
    simp [Except.map]

/-- **The logical owner ledger.** Since any time at which an address was not tracked, the
`use_count` of the block at it is its ledger, which decides when the block may be reused and
trimmed, and requests and `trim` take exactly such blocks; `deallocate` throws exactly on an
untracked address or an empty ledger, and `retain_allocation` exactly on an untracked address, both
without changing anything.  (`use_count` is a natural number: the statement is about runs in which
no `std::size_t` wraps.) -/
theorem logical_owner_ledger (h : PoolRun before w₀) (hrun : Run Step w₀ since w) :
    (∀ p b, w₀.state.allBlocks.lookup p = none → w.state.allBlocks.lookup p = some b →
      Ledgered since w p b) ∧
    Recycles w ∧
    (∀ t p, w₀.state.allBlocks.lookup p = none →
      ((∃ x, (w.perform (.deallocate t p true)).2 = .error x) ↔
        p ≠ nullptr ∧ (w.state.allBlocks.lookup p = none ∨ ledger p since = 0)) ∧
      ∀ x, (w.perform (.deallocate t p true)).2 = .error x →
        (w.perform (.deallocate t p true)).1 = w) ∧
    (∀ t p, ((∃ x, (w.perform (.retainAllocation t p)).2 = .error x) ↔
        w.state.allBlocks.lookup p = none) ∧
      (∀ x, (w.perform (.retainAllocation t p)).2 = .error x →
        (w.perform (.retainAllocation t p)).1 = w) ∧
      ∀ b, w.state.allBlocks.lookup p = some b →
        (w.perform (.retainAllocation t p)).2 = .ok (.size (w.state.blocks b).size)) := by
  have hinv₀ := invariant_of_run h
  have hinv : Invariant w := hrun.invariant Invariant (fun _ _ _ hi hs => hi.step hs) hinv₀
  refine ⟨fun p b hnew hb => ledgered_of_run hinv₀ hrun hnew hb, recycles_of_invariant hinv,
    fun t p hnew => ?_, fun t p => retainAllocation_throws_iff w t p⟩
  obtain ⟨hiff, hsame⟩ := deallocate_throws_iff hinv.placement t p
  refine ⟨hiff.trans (and_congr_right fun hp => ?_), hsame⟩
  have hlaw := useCountAt_of_run hinv₀ hrun hp
  rw [useCountAt_of_untracked hnew] at hlaw
  constructor
  · exact fun hzero => .inr (by omega)
  · rintro (hnone | hzero)
    · exact useCountAt_of_untracked hnone
    · omega

/-- A block allocated, retained and given back once has one owner left. -/
def retainedPool : World :=
  ((World.initial (some 5) true).runEvents
    [.allocate 1 100 (.granting 1 4096), .retainAllocation 2 4096, .deallocate 1 4096 true]).1

theorem logical_owner_ledger_of_retained :
    Ledgered [(.allocate 1 100 (.granting 1 4096), .ok (.pointer 4096)),
        (.retainAllocation 2 4096, .ok (.size 32768)), (.deallocate 1 4096 true, .ok .none)]
      retainedPool 4096 1 :=
  (logical_owner_ledger (poolRun_runEvents (show (World.initial (some 5) true).CanRun [] by decide))
    (World.run_runEvents (by decide) : Run Step (World.initial (some 5) true) _ retainedPool)).1
    4096 1 rfl rfl

end InfiniRT.Pool
