import InfiniRT.Metadata.StorageSteps

/-!
# The layout of a combined allocation

The shape starts where the allocation does, and `std::align` finds the place of the strides behind
it.  The padding is what an alignment can cost, so there is always such a place.  Proved:

* **`placed_of_aligned`** — behind a shape that is aligned there is an aligned place for the
  strides;
* **`combinedAllocation_placed`** — an allocation aborts, throws or places both arrays, and exactly
  when.
-/

namespace InfiniRT.Metadata

open InfiniRT.Library

namespace ShapeStridesStorage

variable {Size Stride : Type} {c : StorageConfig} {alignofSize maxAlign shapeSize stridesSize p : ℕ}

/-- What the language promises of the two types: an alignment is a power of two up to the one of
`std::max_align_t`, and a size is a multiple of the alignment. -/
structure Alignments (c : StorageConfig) (alignofSize maxAlign : ℕ) : Prop where
  max_align : ∃ k, maxAlign = 2 ^ k
  size_align : ∃ k, alignofSize = 2 ^ k
  stride_align : ∃ k, c.alignofStride = 2 ^ k
  size_align_le : alignofSize ≤ maxAlign
  stride_align_le : c.alignofStride ≤ maxAlign
  size_size : alignofSize ∣ c.sizeofSize
  stride_size : c.alignofStride ∣ c.sizeofStride

/-- With the shape at `p` and the strides at `q`, both arrays are aligned, apart and inside. -/
structure Placed (c : StorageConfig) (alignofSize shapeSize stridesSize p q : ℕ) : Prop where
  shape_aligned : ∀ i, alignofSize ∣ p + i * c.sizeofSize
  strides_aligned : ∀ i, c.alignofStride ∣ q + i * c.sizeofStride
  apart : p + shapeSize * c.sizeofSize ≤ q
  inside : q + stridesSize * c.sizeofStride ≤ p + combinedBytes c shapeSize stridesSize

/-- A maximally aligned address is aligned for each type. -/
theorem Alignments.dvd (h : Alignments c alignofSize maxAlign) : alignofSize ∣ maxAlign := by
  obtain ⟨k, hk⟩ := h.max_align
  obtain ⟨j, hj⟩ := h.size_align
  have hle := h.size_align_le
  rw [hk, hj] at hle ⊢
  exact Nat.pow_dvd_pow 2 ((Nat.pow_le_pow_iff_right Nat.one_lt_two).mp hle)

/-- `std::align` always finds a place. -/
theorem placed_of_aligned (h : Alignments c alignofSize maxAlign) (hp : maxAlign ∣ p)
    (shapeSize stridesSize : ℕ) :
    ∃ q, align c.alignofStride (stridesSize * c.sizeofStride) (p + shapeSize * c.sizeofSize)
        (combinedBytes c shapeSize stridesSize - shapeSize * c.sizeofSize) = some q ∧
      Placed c alignofSize shapeSize stridesSize p q := by
  obtain ⟨q, halign, hmod, hle, hle'⟩ := align_of_padding c.alignofStride_pos
    (stridesSize * c.sizeofStride) (p + shapeSize * c.sizeofSize)
  have hspace : combinedBytes c shapeSize stridesSize - shapeSize * c.sizeofSize =
      c.alignofStride - 1 + stridesSize * c.sizeofStride := by
    rw [combinedBytes]
    omega
  refine ⟨q, hspace ▸ halign, fun i => ?_, fun i => ?_, hle, ?_⟩
  · exact Nat.dvd_add (Nat.dvd_trans h.dvd hp) (Nat.dvd_mul_left_of_dvd h.size_size i)
  · exact Nat.dvd_add (Nat.dvd_of_mod_eq_zero hmod) (Nat.dvd_mul_left_of_dvd h.stride_size i)
  · rw [combinedBytes]
    omega

/-- **A combined allocation is sound.** It aborts exactly when its bytes cannot be counted, and
throws exactly when they can and the allocator has no place for them.  `std::align` finds a place
for the strides behind every base address, and the allocation that the constructor returns, which is
the one that the allocator granted, has the arrays there. -/
theorem combinedAllocation_placed (h : Alignments c alignofSize maxAlign)
    (shapeSize stridesSize : ℕ) (s : StorageState Size Stride c) :
    (((combinedAllocation shapeSize stridesSize).run s).1 = .error .abort ↔
      c.sizeMax < combinedBytes c shapeSize stridesSize) ∧
    (((combinedAllocation shapeSize stridesSize).run s).1 = .error .badAlloc ↔
      combinedBytes c shapeSize stridesSize ≤ c.sizeMax ∧ ∀ p, ¬s.memory.combined.Grants p) ∧
    (∀ p, ((combinedAllocation shapeSize stridesSize).run s).1 = .ok p ↔
      combinedBytes c shapeSize stridesSize ≤ c.sizeMax ∧ s.memory.combined.Grants p) ∧
    ∀ p, maxAlign ∣ p →
      ∃ q, align c.alignofStride (stridesSize * c.sizeofStride) (p + shapeSize * c.sizeofSize)
          (combinedBytes c shapeSize stridesSize - shapeSize * c.sizeofSize) = some q ∧
        Placed c alignofSize shapeSize stridesSize p q ∧
        (((combinedAllocation shapeSize stridesSize).run s).1 = .ok p →
          ((combinedAllocation shapeSize stridesSize).run s).2.memory.combined.buffers p =
            some ((), ⟨combinedBytes c shapeSize stridesSize, List.replicate shapeSize none, q - p,
              List.replicate stridesSize none⟩)) := by
  rcases combinedAllocation_steps shapeSize stridesSize s with
    ⟨p, strides, hbytes, hp, halign, hrun⟩ | ⟨hbytes, hnot, hrun⟩ | ⟨hbytes, hrun⟩
  · rw [hrun]
    refine ⟨iff_of_false nofun (Nat.not_lt_of_le hbytes),
      iff_of_false nofun fun hrefused => hrefused.2 p hp, fun p' => ?_, fun p' hp' => ?_⟩
    · constructor
      · intro hok
        obtain rfl := Except.ok.inj hok
        exact ⟨hbytes, hp⟩
      · exact fun hgrants => congrArg Except.ok (hp.unique hgrants.2)
    · obtain ⟨q, hq, hplaced⟩ := placed_of_aligned h hp' shapeSize stridesSize
      refine ⟨q, hq, hplaced, fun hok => ?_⟩
      obtain rfl := Except.ok.inj hok
      obtain rfl := Option.some.inj (halign.symm.trans hq)
      exact Ledger.write_buffers_self _ _ _ _
  · rw [hrun]
    refine ⟨iff_of_false nofun (Nat.not_lt_of_le hbytes), iff_of_true rfl ⟨hbytes, hnot⟩,
      fun p' => iff_of_false nofun fun hgrants => hnot p' hgrants.2, fun p' hp' => ?_⟩
    obtain ⟨q, hq, hplaced⟩ := placed_of_aligned h hp' shapeSize stridesSize
    exact ⟨q, hq, hplaced, nofun⟩
  · rw [hrun]
    refine ⟨iff_of_true rfl hbytes,
      iff_of_false nofun fun hrefused => Nat.not_le_of_lt hbytes hrefused.1,
      fun p' => iff_of_false nofun fun hgrants => Nat.not_le_of_lt hbytes hgrants.1,
      fun p' hp' => ?_⟩
    obtain ⟨q, hq, hplaced⟩ := placed_of_aligned h hp' shapeSize stridesSize
    exact ⟨q, hq, hplaced, nofun⟩

/-- Sizes of two bytes before strides of four. -/
def narrowShape : StorageConfig where
  inlineCapacity := 3
  shapeMaxSize := 2 ^ 62 - 1
  stridesMaxSize := 2 ^ 61 - 1
  sizeofSize := 2
  sizeofStride := 4
  alignofStride := 4
  sizeMax := 2 ^ 64 - 1
  inlineCapacity_pos := by decide
  inlineCapacity_le_shape := by decide
  inlineCapacity_le_strides := by decide
  alignofStride_pos := by decide
  alignofStride_le := by decide

/-- Nothing is allocated, and the allocator gives out addresses that are multiples of 16. -/
def noAllocations : StorageState ℕ ℕ narrowShape :=
  ⟨⟨⟨fun _ => none, some⟩, ⟨fun _ => none, some⟩, ⟨fun _ => none, fun n => some (16 * n + 64)⟩⟩,
    {}, {}, {}⟩

theorem narrowShape_alignments : Alignments narrowShape 2 16 :=
  ⟨⟨4, rfl⟩, ⟨1, rfl⟩, ⟨2, rfl⟩, by decide, by decide, Nat.dvd_refl 2, Nat.dvd_refl 4⟩

/-- Three sizes end at 70, so the strides start at 72. -/
theorem combinedAllocation_placed_narrowShape :
    ((combinedAllocation 3 2).run noAllocations).1 = .ok 64 ∧
      align 4 (2 * 4) (64 + 3 * 2) (combinedBytes narrowShape 3 2 - 3 * 2) = some 72 ∧
      Placed narrowShape 2 3 2 64 72 ∧
      ((combinedAllocation 3 2).run noAllocations).2.memory.combined.buffers 64 =
        some ((), ⟨17, [none, none, none], 8, [none, none]⟩) := by
  obtain ⟨-, -, hgranted, hplaced⟩ :=
    combinedAllocation_placed narrowShape_alignments 3 2 noAllocations
  have hok := (hgranted 64).mpr ⟨by decide, rfl, rfl⟩
  obtain ⟨q, halign, hq, hbuffer⟩ := hplaced 64 (by decide)
  obtain rfl : q = 72 := Option.some.inj (halign.symm.trans (by decide))
  exact ⟨hok, halign, hq, hbuffer hok⟩

end ShapeStridesStorage

end InfiniRT.Metadata
