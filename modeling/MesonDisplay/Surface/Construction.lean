/-
  MesonDisplay.Surface.Construction — what a successful constructor promises.

  The EINVAL of a size that is 0 is overwritten by the result of
  `set_pixel_format`, and the lines of all surfaces are counted in an unsigned
  int.  Only the mapping catches a count that is 0.

  Main results:
    * `construct_ne_einval` — no call reports the EINVAL.
    * `usable_iff` — when success means a usable surface.
-/
import MesonDisplay.Surface.DoubleBuffer

namespace MesonDisplay.Surface

/-! ## §1. Any type. -/

/-- The format that a value of the enumeration names. -/
def HwalSurfaceType.ofValue (value : UInt32) : Option HwalSurfaceType :=
  if value = 0 then some .clut8
  else if value = 1 then some .xRgb16
  else if value = 2 then some .aRgb16
  else if value = 3 then some .xRgb32
  else if value = 4 then some .aRgb32
  else none

/-- The constructor, for any value of the enumeration.  One behind the last name
is refused as CLUT8 is. -/
def construct (dev : FbDevice) (type : UInt32) (width height : UInt16) (numSurfaces : UInt32) :
    Except HwalError HwalFBSurface :=
  match HwalSurfaceType.ofValue type with
  | none => .error .eopnotsupp
  | some type => newHwalFBSurface dev type width height numSurfaces

/-- The value names a format that is supported. -/
def Supported (type : UInt32) : Prop :=
  ∃ format, HwalSurfaceType.ofValue type = some format ∧ format ≠ .clut8

section Construct

variable {dev : FbDevice} {type : UInt32} {width height : UInt16} {numSurfaces : UInt32}
  {s : HwalFBSurface}

theorem construct_ok (hnew : construct dev type width height numSurfaces = .ok s) :
    ∃ format v, HwalSurfaceType.ofValue type = some format ∧
      Constructed dev format width height numSurfaces s v := by
  unfold construct at hnew
  cases hformat : HwalSurfaceType.ofValue type with
  | none => simp [hformat] at hnew
  | some format =>
      rw [hformat] at hnew
      obtain ⟨v, hs⟩ := constructed_new hnew
      exact ⟨format, v, rfl, hs⟩

/-- **The EINVAL is never reported.** -/
theorem construct_ne_einval (dev : FbDevice) (type : UInt32) (width height : UInt16)
    (numSurfaces : UInt32) : construct dev type width height numSurfaces ≠ .error .einval := by
  unfold construct
  cases HwalSurfaceType.ofValue type with
  | none => simp
  | some format =>
      unfold newHwalFBSurface
      dsimp only
      -- every branch has another error, or none
      split_ifs
      · simp
      · simp
      · split
        · simp
        · split
          · simp
          · split
            · simp
            · split
              · simp
              · split_ifs <;> simp

/-! ## §2. A usable surface. -/

/-- The mode that the constructor asks for, as far as it comes to ask. -/
def constructedMode (dev : FbDevice) (type : UInt32) (width height : UInt16)
    (numSurfaces : UInt32) : Option FbVarScreeninfo := do
  let type ← HwalSurfaceType.ofValue type
  let varInfo ← dev.varInfo
  let (varInfo, bitspp) ← setPixelFormat type varInfo
  return requestedMode varInfo bitspp width height numSurfaces

/-- `FBIOPUT_VSCREENINFO` leaves the number of lines of this mode. -/
def FbDevice.KeepsLines (dev : FbDevice) (v : FbVarScreeninfo) : Prop :=
  ∀ v', dev.putVarInfo v = some v' → v'.yresVirtual = v.yresVirtual

/-- The number that it leaves is an unsigned int. -/
def FbDevice.LeavesUInt (dev : FbDevice) : Prop :=
  ∀ v v', dev.putVarInfo v = some v' → v'.yresVirtual < 2 ^ 32

/-- What a constructed surface is good for. -/
structure Usable (type : UInt32) (width height : UInt16) (numSurfaces : UInt32)
    (s : HwalFBSurface) : Prop where
  width_pos : 0 < width.toNat
  height_pos : 0 < height.toNat
  surfaces_pos : 0 < numSurfaces.toNat
  width_le : width.toNat ≤ 1920
  height_le : height.toNat ≤ 1080
  supported : Supported type
  lines : s.mVarInfo.yresVirtual = height.toNat * numSurfaces.toNat

/-- The mode that a surface was made with. -/
theorem constructedMode_eq {format : HwalSurfaceType} {v : FbVarScreeninfo}
    (hformat : HwalSurfaceType.ofValue type = some format)
    (hs : Constructed dev format width height numSurfaces s v) :
    constructedMode dev type width height numSurfaces
      = some (requestedMode v s.mBitspp width height numSurfaces) := by
  obtain ⟨v₀, hv₀, hset⟩ := hs.from_driver
  unfold constructedMode
  rw [hformat, hv₀]
  show (setPixelFormat format v₀).bind _ = _
  rw [hset]
  rfl

/-- **Success means a usable surface** exactly if it has a width, its lines are
counted without wrapping, and the driver leaves their number. -/
theorem usable_iff (huint : dev.LeavesUInt)
    (hnew : construct dev type width height numSurfaces = .ok s) :
    Usable type width height numSurfaces s ↔
      0 < width.toNat ∧ height.toNat * numSurfaces.toNat < 2 ^ 32 ∧
        ∀ v, constructedMode dev type width height numSurfaces = some v → dev.KeepsLines v := by
  obtain ⟨format, v, hformat, hs⟩ := construct_ok hnew
  have hmode := constructedMode_eq hformat hs
  constructor
  · intro h
    have hwrap : height.toNat * numSurfaces.toNat < 2 ^ 32 := by
      rw [← h.lines]
      exact huint _ _ hs.put
    refine ⟨h.width_pos, hwrap, fun w hw v' hput => ?_⟩
    rw [hmode] at hw
    obtain rfl := Option.some.inj hw
    rw [hs.put] at hput
    obtain rfl := Option.some.inj hput
    show s.mVarInfo.yresVirtual = u32 (height.toNat * numSurfaces.toNat)
    rw [u32_of_lt hwrap]
    exact h.lines
  · rintro ⟨hwidth, hwrap, hkeeps⟩
    have hlines : s.mVarInfo.yresVirtual = height.toNat * numSurfaces.toNat := by
      rw [hkeeps _ hmode _ hs.put]
      exact u32_of_lt hwrap
    -- nothing would have been mapped for no lines
    have hpos : 0 < height.toNat * numSurfaces.toNat := by
      refine Nat.pos_of_ne_zero fun h0 => ?_
      have hmapped := hs.mapped_pos
      rw [hs.mapped, hlines, h0, Nat.zero_mul] at hmapped
      exact absurd hmapped (by decide)
    exact
      { width_pos := hwidth
        height_pos := Nat.pos_of_mul_pos_right hpos
        surfaces_pos := Nat.pos_of_mul_pos_left hpos
        width_le := hs.width_le
        height_le := hs.height_le
        supported := ⟨format, hformat, hs.supported⟩
        lines := hlines }

end Construct

/-- A driver that leaves at most `2 ^ 32 - 1` lines, and every other mode as it
is. -/
def clampingDevice : FbDevice :=
  { tightDevice with
    putVarInfo := fun v => some { v with yresVirtual := min v.yresVirtual (2 ^ 32 - 1) } }

theorem clampingDevice_leaves : clampingDevice.LeavesUInt := by
  intro v v' hput
  obtain rfl := Option.some.inj hput
  exact Nat.lt_of_le_of_lt (Nat.min_le_right _ _) (by decide)

/-- Two surfaces of 2 by 2 pixels. -/
theorem usable_small :
    ∃ s, construct clampingDevice 4 2 2 2 = .ok s ∧
      (Usable 4 2 2 2 s ↔ 0 < 2 ∧ 2 * 2 < 2 ^ 32 ∧
        ∀ v, constructedMode clampingDevice 4 2 2 2 = some v → clampingDevice.KeepsLines v) :=
  ⟨_, rfl, usable_iff clampingDevice_leaves
    (show construct clampingDevice 4 2 2 2 = .ok _ from rfl)⟩

theorem clampingDevice_keeps {v : FbVarScreeninfo} (hv : v.yresVirtual < 2 ^ 32) :
    clampingDevice.KeepsLines v := by
  intro v' hput
  obtain rfl := Option.some.inj hput
  exact Nat.min_eq_left (Nat.le_of_lt_succ hv)

/-- 2147483649 surfaces of two lines are counted as two lines, also by a driver
that leaves every mode as it is. -/
theorem usable_wrapped :
    clampingDevice.LeavesUInt ∧
    (∀ v : FbVarScreeninfo, v.yresVirtual < 2 ^ 32 → clampingDevice.KeepsLines v) ∧
    ∃ s, construct clampingDevice 4 2 2 2147483649 = .ok s ∧ s.mVarInfo.yresVirtual = 2 ∧
      ¬ Usable 4 2 2 2147483649 s :=
  ⟨clampingDevice_leaves, fun _ => clampingDevice_keeps, _, rfl, rfl,
    fun husable => absurd husable.lines (by decide)⟩

end MesonDisplay.Surface
