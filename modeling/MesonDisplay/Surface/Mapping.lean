/-
  MesonDisplay.Surface.Mapping — accesses and the mapping.

  A surface maps `yres_virtual * mBytepl` bytes, counted in an unsigned int, with
  the `yres_virtual` that the driver leaves.  A blit ends at the last byte of its
  last row.  `clean` first copies as many bytes as its rectangle has between the
  beginning of the mapping and the bytes behind them, if `mCurSurface` is 0 or 1;
  with one surface there may be no such bytes, and `mCurSurface` is what was in a
  local variable of `blitImage`.

  Main results:
    * `blitImage_inside_iff`, `clean_inside_iff` — the calls that stay inside.
    * `accesses_inside_iff` — the modes in which every call of every run does.
    * `mappingFits_of_lines`, `mappingFits_one_iff` — when a mode is one of these.
-/
import MesonDisplay.Surface.DoubleBuffer

namespace MesonDisplay.Surface

open MesonDisplay.Blit
open MesonDisplay.Runs

/-! ## §1. The conditions. -/

/-- Every byte of the framebuffer that the call reads or writes is mapped. -/
def Inside (s : FbState) (c : FbCall) : Prop :=
  ∀ off, Reads (c.run s).accesses off ∨ Writes (c.run s).accesses off → off < s.surface.mapped

/-- Where the surface that is blitted into begins. -/
def targetBase (s : HwalFBSurface) : Nat :=
  if s.mNumSurfaces ≠ 1 ∧ s.mCurSurface = 0 then s.size else 0

/-- The rectangle of a blit ends inside of the mapping. -/
def BlitFits (s : HwalFBSurface) (a : BlitArgs) : Prop :=
  a.OnScreen s → 0 < a.wReal s * s.bytespp → 0 < a.hReal s →
    rectRow s a (targetBase s) (a.hReal s - 1) + a.wReal s * s.bytespp ≤ s.mapped

/-- Twice the bytes of the rectangle are mapped, if they are copied. -/
def CopyFits (s : HwalFBSurface) (a : BlitArgs) : Prop :=
  s.mCurSurface < 2 → 2 * (a.width.toNat * a.height.toNat * s.bytespp) ≤ s.mapped

def Fits (s : FbState) : FbCall → Prop
  | .blitImage none _ => True
  | .blitImage (some _) a => BlitFits s.surface a
  | .clean callocOk a => CopyFits s.surface a ∧ (callocOk = true → BlitFits s.surface a)

/-- In the mode that the driver left, the last row of the second surface is
mapped; with one surface, its own last row, and twice its pixels. -/
def MappingFits (s : HwalFBSurface) : Prop :=
  let rows := (s.mVarInfo.yres - 1) * s.mBytepl + s.mVarInfo.xres * s.bytespp
  let length := u32 (s.mVarInfo.yresVirtual * s.mBytepl)
  if s.mNumSurfaces = 1 then rows ≤ length ∧ 2 * s.size ≤ length else s.size + rows ≤ length

/-- The rectangle of a `clean` is inside the screen. -/
def FbCall.InScreen (width height : UInt16) : FbCall → Prop
  | .blitImage _ _ => True
  | .clean _ a =>
      a.x.toNat + a.width.toNat ≤ width.toNat ∧ a.y.toNat + a.height.toNat ≤ height.toNat

/-! ## §2. One call. -/

section Calls

variable {s : FbState} {a : BlitArgs}

theorem chooseTarget_fbuffer (s : HwalFBSurface) (bufferLen curSur : Nat) :
    (chooseTarget s bufferLen curSur).fbuffer
      = if s.mNumSurfaces ≠ 1 ∧ s.mCurSurface = 0 then bufferLen else 0 := by
  unfold chooseTarget
  by_cases hnum : s.mNumSurfaces = 1
  · simp [hnum]
  · by_cases h255 : s.mCurSurface = 255
    · simp [hnum, h255]
    · by_cases h0 : s.mCurSurface = 0
      · simp [hnum, h0]
      · by_cases h1 : s.mCurSurface = 1
        · simp [hnum, h1]
        · simp [hnum, h255, h0, h1]

/-- All rows are below a bound if the last one is. -/
theorem inRows_lt_iff {dst : Nat → Nat} {n rows bound : Nat}
    (hmono : ∀ i j, i ≤ j → dst i ≤ dst j) :
    (∀ off, InRows dst n rows off → off < bound)
      ↔ (0 < n → 0 < rows → dst (rows - 1) + n ≤ bound) := by
  constructor
  · intro hall hn hrows
    have hlast := hall (dst (rows - 1) + (n - 1)) ⟨rows - 1, by omega, by omega, by omega⟩
    omega
  · rintro hfits off ⟨i, hi, hle, hlt⟩
    have hend := hfits (by omega) (by omega)
    have hrow := hmono i (rows - 1) (by omega)
    omega

theorem rectRow_mono (s : HwalFBSurface) (a : BlitArgs) (base : Nat) {i j : Nat} (hij : i ≤ j) :
    rectRow s a base i ≤ rectRow s a base j := by
  unfold rectRow
  have hrow : (a.y.toNat + i) * s.mBytepl ≤ (a.y.toNat + j) * s.mBytepl :=
    Nat.mul_le_mul_right _ (by omega)
  omega

theorem plainBlit_accesses (s : FbState) (image : Image) (a : BlitArgs) :
    (plainBlit s image a).accesses
      = rowAccesses (rectRow s.surface a (targetBase s.surface)) (imageRow s.surface a)
          (a.wReal s.surface * s.surface.bytespp) (a.hReal s.surface) := by
  rw [plainBlit_rows, chooseTarget_fbuffer]
  rfl

/-- A blit of an image stays inside exactly if its rectangle fits. -/
theorem blitImage_inside_iff (hs : Regular s.surface) (image : Image) :
    (∀ off, Reads (blitImage s (some image) a).accesses off ∨
        Writes (blitImage s (some image) a).accesses off → off < s.surface.mapped)
      ↔ BlitFits s.surface a := by
  by_cases ha : a.OnScreen s.surface
  · rw [blitImage_valid hs.unwrapped image ha, plainBlit_accesses]
    have hfits : BlitFits s.surface a ↔ (0 < a.wReal s.surface * s.surface.bytespp →
        0 < a.hReal s.surface → rectRow s.surface a (targetBase s.surface)
            (a.hReal s.surface - 1) + a.wReal s.surface * s.surface.bytespp
          ≤ s.surface.mapped) := ⟨fun h => h ha, fun h _ => h⟩
    rw [hfits, ← inRows_lt_iff (fun i j hij => rectRow_mono s.surface a _ hij)]
    constructor
    · intro hall off hoff
      exact hall off (.inr ((writes_rowAccesses off).mpr hoff))
    · rintro hall off (hread | hwrite)
      · exact absurd hread (not_reads_rowAccesses off)
      · exact hall off ((writes_rowAccesses off).mp hwrite)
  · rw [blitImage_invalid (.inr ha)]
    refine iff_of_true ?_ (fun h => absurd h ha)
    rintro off (⟨_, _, hmem, -⟩ | ⟨_, _, hmem, -⟩)
    · exact absurd hmem List.not_mem_nil
    · exact absurd hmem List.not_mem_nil

/-- A blit of NULL accesses nothing. -/
theorem blitImage_null_inside (s : FbState) (a : BlitArgs) (off : Nat) :
    ¬ (Reads (blitImage s none a).accesses off ∨ Writes (blitImage s none a).accesses off) := by
  rw [blitImage_invalid (.inl rfl)]
  rintro (⟨_, _, hmem, -⟩ | ⟨_, _, hmem, -⟩)
  · exact absurd hmem List.not_mem_nil
  · exact absurd hmem List.not_mem_nil

/-- What the loops of `clean` access. -/
theorem mem_copyBytes {mem : Nat → UInt8} {dst src : Nat → Nat} {n : Nat} {e : Access} :
    e ∈ (copyBytes mem dst src n).2 ↔ ∃ i, i < n ∧ (e = .read (src i) 1 ∨ e = .write (dst i) 1) := by
  induction n with
  | zero =>
      refine iff_of_false List.not_mem_nil ?_
      rintro ⟨i, hi, -⟩
      exact absurd hi (Nat.not_lt_zero i)
  | succ n ih =>
      unfold copyBytes
      simp only [List.mem_append, ih]
      constructor
      · rintro (⟨i, hi, he⟩ | he)
        · exact ⟨i, Nat.lt_succ_of_lt hi, he⟩
        · exact ⟨n, Nat.lt_succ_self n, by simpa using he⟩
      · rintro ⟨i, hi, he⟩
        rcases Nat.lt_succ_iff_lt_or_eq.mp hi with hlt | rfl
        · exact .inl ⟨i, hlt, he⟩
        · exact .inr (by simpa using he)

/-- Both loops access the bytes of the rectangle, and as many behind them. -/
theorem copyBytes_inside_iff {mem : Nat → UInt8} {dst src : Nat → Nat} {n bound : Nat}
    (hrange : (∀ i, i < n → dst i = i + n ∧ src i = i) ∨
      ∀ i, i < n → dst i = i ∧ src i = i + n) :
    (∀ off, Reads (copyBytes mem dst src n).2 off ∨ Writes (copyBytes mem dst src n).2 off →
        off < bound) ↔ 2 * n ≤ bound := by
  constructor
  · intro hall
    by_contra hbound
    -- the last of the bytes behind them is not below the bound
    have hlast : n - 1 < n := by omega
    rcases hrange with h | h
    · obtain ⟨hdst, -⟩ := h (n - 1) hlast
      have hlt := hall (dst (n - 1)) (.inr ⟨dst (n - 1), 1,
        mem_copyBytes.mpr ⟨n - 1, hlast, .inr rfl⟩, Nat.le_refl _, Nat.lt_succ_self _⟩)
      omega
    · obtain ⟨-, hsrc⟩ := h (n - 1) hlast
      have hlt := hall (src (n - 1)) (.inl ⟨src (n - 1), 1,
        mem_copyBytes.mpr ⟨n - 1, hlast, .inl rfl⟩, Nat.le_refl _, Nat.lt_succ_self _⟩)
      omega
  · intro hbound off hoff
    have hsome : ∃ i, i < n ∧ (off = src i ∨ off = dst i) := by
      rcases hoff with ⟨start, len, hmem, hle, hlt⟩ | ⟨start, len, hmem, hle, hlt⟩
      · obtain ⟨i, hi, he | he⟩ := mem_copyBytes.mp hmem
        · obtain ⟨rfl, rfl⟩ := Access.read.inj he
          exact ⟨i, hi, .inl (by omega)⟩
        · exact absurd he (by simp)
      · obtain ⟨i, hi, he | he⟩ := mem_copyBytes.mp hmem
        · exact absurd he (by simp)
        · obtain ⟨rfl, rfl⟩ := Access.write.inj he
          exact ⟨i, hi, .inr (by omega)⟩
    obtain ⟨i, hi, hoff⟩ := hsome
    rcases hrange with h | h
    · have hi' := h i hi
      omega
    · have hi' := h i hi
      omega

theorem reads_append {xs ys : List Access} {off : Nat} :
    Reads (xs ++ ys) off ↔ Reads xs off ∨ Reads ys off := by
  unfold Reads
  simp only [List.mem_append, or_and_right, exists_or]

theorem writes_append {xs ys : List Access} {off : Nat} :
    Writes (xs ++ ys) off ↔ Writes xs off ∨ Writes ys off := by
  unfold Writes
  simp only [List.mem_append, or_and_right, exists_or]

theorem inside_append {xs ys : List Access} {bound : Nat} :
    (∀ off, Reads (xs ++ ys) off ∨ Writes (xs ++ ys) off → off < bound)
      ↔ (∀ off, Reads xs off ∨ Writes xs off → off < bound) ∧
        ∀ off, Reads ys off ∨ Writes ys off → off < bound := by
  simp only [reads_append, writes_append]
  constructor
  · intro h
    refine ⟨fun off hoff => h off ?_, fun off hoff => h off ?_⟩
    · exact hoff.imp .inl .inl
    · exact hoff.imp .inr .inr
  · rintro ⟨hx, hy⟩ off ((h | h) | h | h)
    · exact hx off (.inl h)
    · exact hy off (.inl h)
    · exact hx off (.inr h)
    · exact hy off (.inr h)

/-- `buffer_len` of `clean`, for a rectangle inside the screen. -/
theorem cleanLen_eq (hs : Regular s.surface)
    (hin : a.x.toNat + a.width.toNat ≤ s.surface.mVarInfo.xres ∧
      a.y.toNat + a.height.toNat ≤ s.surface.mVarInfo.yres) :
    u32 (a.width.toNat * a.height.toNat * s.surface.mBitspp / 8)
        = a.width.toNat * a.height.toNat * s.surface.bytespp ∧
      a.width.toNat * a.height.toNat * s.surface.bytespp ≤ 8294400 := by
  have hxres := hs.xres
  have hyres := hs.yres
  have harea : a.width.toNat * a.height.toNat ≤ 1920 * 1080 :=
    Nat.mul_le_mul (by omega) (by omega)
  have hlen : a.width.toNat * a.height.toNat * s.surface.bytespp ≤ 1920 * 1080 * 4 :=
    Nat.mul_le_mul harea hs.bytespp_le
  have hbytes : a.width.toNat * a.height.toNat * s.surface.mVarInfo.bitsPerPixel / 8
      = a.width.toNat * a.height.toNat * s.surface.bytespp := mul_bits_div hs.bits _
  rw [hs.bitspp, hbytes, u32_of_lt (by omega)]
  exact ⟨rfl, hlen⟩

/-- `clean` stays inside exactly if what it copies and its rectangle fit. -/
theorem clean_inside_iff (hs : Regular s.surface) (callocOk : Bool)
    (hin : a.x.toNat + a.width.toNat ≤ s.surface.mVarInfo.xres ∧
      a.y.toNat + a.height.toNat ≤ s.surface.mVarInfo.yres) :
    Inside s (.clean callocOk a) ↔ Fits s (.clean callocOk a) := by
  obtain ⟨hlen, hle⟩ := cleanLen_eq hs hin
  have hwrap : ∀ i, i < a.width.toNat * a.height.toNat * s.surface.bytespp →
      u32 (i + a.width.toNat * a.height.toNat * s.surface.bytespp)
        = i + a.width.toNat * a.height.toNat * s.surface.bytespp :=
    fun i hi => u32_of_lt (by omega)
  have hblit : ∀ mem, (∀ off, Reads (blitImage { s with mem := mem }
        (if callocOk then some fun _ => 0 else none) a).accesses off ∨
      Writes (blitImage { s with mem := mem }
        (if callocOk then some fun _ => 0 else none) a).accesses off → off < s.surface.mapped)
      ↔ (callocOk = true → BlitFits s.surface a) := by
    intro mem
    cases callocOk with
    | false =>
        refine iff_of_true (fun off h => ?_) (fun h => absurd h (by simp))
        exact absurd h (blitImage_null_inside _ a off)
    | true =>
        have himage := blitImage_inside_iff (s := { s with mem := mem }) (a := a) hs fun _ => 0
        exact himage.trans ⟨fun h _ => h, fun h => h rfl⟩
  show (∀ off, Reads (clean s callocOk a).accesses off ∨
    Writes (clean s callocOk a).accesses off → off < s.surface.mapped) ↔ _
  unfold clean Fits CopyFits
  simp only [hlen]
  -- the copy is in one direction, or in the other, or there is none
  by_cases h0 : s.surface.mCurSurface = 0
  · simp only [if_pos h0]
    rw [inside_append, hblit, copyBytes_inside_iff (.inl fun i hi => ⟨hwrap i hi, rfl⟩), h0]
    simp
  · by_cases h1 : s.surface.mCurSurface = 1
    · simp only [if_neg h0, if_pos h1]
      rw [inside_append, hblit, copyBytes_inside_iff (.inr fun i hi => ⟨rfl, hwrap i hi⟩), h1]
      simp
    · have hge : ¬ s.surface.mCurSurface < 2 := by omega
      simp only [if_neg h0, if_neg h1]
      rw [inside_append, hblit]
      refine and_congr_left fun _ => iff_of_true ?_ (fun h => absurd h hge)
      rintro off (⟨_, _, hmem, -⟩ | ⟨_, _, hmem, -⟩)
      · exact absurd hmem List.not_mem_nil
      · exact absurd hmem List.not_mem_nil

end Calls

/-! ## §3. Runs. -/

/-- What a call leaves of the surface. -/
structure SameMapping (s s' : HwalFBSurface) : Prop where
  mapped : s'.mapped = s.mapped
  bitspp : s'.mBitspp = s.mBitspp
  bytepl : s'.mBytepl = s.mBytepl
  numSurfaces : s'.mNumSurfaces = s.mNumSurfaces
  varInfo : s'.mVarInfo = { s.mVarInfo with yoffset := s'.mVarInfo.yoffset }

theorem SameMapping.refl (s : HwalFBSurface) : SameMapping s s := ⟨rfl, rfl, rfl, rfl, rfl⟩

theorem SameMapping.symm {s s' : HwalFBSurface} (h : SameMapping s s') : SameMapping s' s where
  mapped := h.mapped.symm
  bitspp := h.bitspp.symm
  bytepl := h.bytepl.symm
  numSurfaces := h.numSurfaces.symm
  varInfo := by rw [h.varInfo]

theorem SameMapping.trans {s s' s'' : HwalFBSurface} (h : SameMapping s s')
    (h' : SameMapping s' s'') : SameMapping s s'' where
  mapped := h'.mapped.trans h.mapped
  bitspp := h'.bitspp.trans h.bitspp
  bytepl := h'.bytepl.trans h.bytepl
  numSurfaces := h'.numSurfaces.trans h.numSurfaces
  varInfo := by rw [h'.varInfo, h.varInfo]

theorem blitImage_same (s : FbState) (image : Option Image) (a : BlitArgs) :
    SameMapping s.surface (blitImage s image a).state.surface := by
  unfold blitImage
  cases image with
  | none => exact .refl _
  | some image =>
      dsimp only
      split_ifs
      · exact .refl _
      · exact ⟨rfl, rfl, rfl, rfl, rfl⟩
      · exact ⟨rfl, rfl, rfl, rfl, rfl⟩

/-- Behind the copy, `clean` is a blit. -/
theorem clean_state (s : FbState) (callocOk : Bool) (a : BlitArgs) :
    ∃ mem image, (clean s callocOk a).state
      = (blitImage ⟨s.surface, mem, s.panned⟩ image a).state := ⟨_, _, rfl⟩

theorem fbStep_same {s s' : FbState} {c : FbCall} (hstep : fbStep s c = some s') :
    SameMapping s.surface s'.surface := by
  obtain rfl := Option.some.inj hstep
  cases c with
  | blitImage image a => exact blitImage_same s image a
  | clean callocOk a =>
      obtain ⟨mem, image, hstate⟩ := clean_state s callocOk a
      show SameMapping s.surface (clean s callocOk a).state.surface
      rw [hstate]
      exact blitImage_same ⟨s.surface, mem, s.panned⟩ image a

theorem Regular.of_same {s s' : HwalFBSurface} (hs : Regular s) (h : SameMapping s s') :
    Regular s' := by
  have hbits : s'.mVarInfo.bitsPerPixel = s.mVarInfo.bitsPerPixel := by rw [h.varInfo]
  have hxres : s'.mVarInfo.xres = s.mVarInfo.xres := by rw [h.varInfo]
  have hyres : s'.mVarInfo.yres = s.mVarInfo.yres := by rw [h.varInfo]
  refine ⟨?_, ?_, ?_, ?_, ?_, ?_⟩
  · rw [hbits]
    exact hs.bits
  · rw [h.bitspp, hbits]
    exact hs.bitspp
  · rw [hxres]
    exact hs.xres
  · rw [hyres]
    exact hs.yres
  · unfold HwalFBSurface.bytespp
    rw [hxres, hbits, h.bytepl]
    exact hs.pitch
  · rw [h.bytepl]
    exact hs.bytepl

theorem SameMapping.xres_yres {s s' : HwalFBSurface} (h : SameMapping s s') :
    s'.mVarInfo.xres = s.mVarInfo.xres ∧ s'.mVarInfo.yres = s.mVarInfo.yres := by
  rw [h.varInfo]
  exact ⟨rfl, rfl⟩

theorem MappingFits.of_same {s s' : HwalFBSurface} (hfits : MappingFits s)
    (h : SameMapping s s') : MappingFits s' := by
  unfold MappingFits HwalFBSurface.size HwalFBSurface.bytespp
  rw [h.numSurfaces, h.bytepl, h.varInfo]
  exact hfits

/-! ## §4. A mapping that is large enough. -/

section Fits

variable {s : HwalFBSurface} {a : BlitArgs}

/-- A surface has no more bytes than its rows reach. -/
theorem Regular.size_le (hs : Regular s) (hyres : 0 < s.mVarInfo.yres) :
    s.size ≤ (s.mVarInfo.yres - 1) * s.mBytepl + s.mVarInfo.xres * s.bytespp := by
  have hlines : s.size = (s.mVarInfo.yres - 1) * (s.mVarInfo.xres * s.bytespp)
      + s.mVarInfo.xres * s.bytespp := by
    unfold HwalFBSurface.size
    rw [← Nat.succ_mul, Nat.succ_eq_add_one, Nat.sub_add_cancel hyres,
      Nat.mul_comm s.mVarInfo.xres, Nat.mul_assoc]
  have hrows : (s.mVarInfo.yres - 1) * (s.mVarInfo.xres * s.bytespp)
      ≤ (s.mVarInfo.yres - 1) * s.mBytepl := Nat.mul_le_mul_left _ hs.pitch
  omega

/-- Every rectangle ends no later than the rows of its surface. -/
theorem blitFits_of_rows
    (hrows : targetBase s + ((s.mVarInfo.yres - 1) * s.mBytepl + s.mVarInfo.xres * s.bytespp)
      ≤ s.mapped) : BlitFits s a := by
  intro ha _ _
  obtain ⟨hw, -⟩ := realSize_le a.width.toNat ha.1
  obtain ⟨hh, -⟩ := realSize_le a.height.toNat ha.2
  unfold BlitArgs.hReal BlitArgs.wReal rectRow
  have hcolumn : a.x.toNat * s.bytespp
      + realSize a.x.toNat a.width.toNat s.mVarInfo.xres * s.bytespp
      ≤ s.mVarInfo.xres * s.bytespp := by
    rw [← Nat.add_mul]
    exact Nat.mul_le_mul_right _ (by have := ha.1; omega)
  have hlast : (a.y.toNat + (realSize a.y.toNat a.height.toNat s.mVarInfo.yres - 1)) * s.mBytepl
      ≤ (s.mVarInfo.yres - 1) * s.mBytepl :=
    Nat.mul_le_mul_right _ (by have := ha.2; omega)
  omega

theorem copyFits_of_size
    (hin : a.x.toNat + a.width.toNat ≤ s.mVarInfo.xres ∧
      a.y.toNat + a.height.toNat ≤ s.mVarInfo.yres)
    (hsize : 2 * s.size ≤ s.mapped) : CopyFits s a := by
  intro _
  have harea : a.width.toNat * a.height.toNat * s.bytespp ≤ s.size :=
    Nat.mul_le_mul_right _ (Nat.mul_le_mul (by omega) (by omega))
  omega

/-- Rows and pixels that are mapped, from the condition. -/
theorem MappingFits.bounds (hfits : MappingFits s) (hs : Regular s)
    (hyres : 0 < s.mVarInfo.yres) (hmapped : s.mapped = u32 (s.mVarInfo.yresVirtual * s.mBytepl)) :
    targetBase s + ((s.mVarInfo.yres - 1) * s.mBytepl + s.mVarInfo.xres * s.bytespp) ≤ s.mapped ∧
      2 * s.size ≤ s.mapped := by
  have hsize := hs.size_le hyres
  unfold MappingFits at hfits
  unfold targetBase
  by_cases hnum : s.mNumSurfaces = 1
  · rw [if_pos hnum] at hfits
    rw [if_neg (fun h => h.1 hnum), hmapped, Nat.zero_add]
    exact hfits
  · rw [if_neg hnum] at hfits
    split_ifs <;> omega

end Fits

/-! ## §5. A mapping that is too small. -/

/-- An image as large as the screen. -/
def fullBlit (width height : UInt16) : BlitArgs := ⟨0, 0, width, height, true, 0⟩

section FullBlit

variable {s : HwalFBSurface} {width height : UInt16}

theorem fullBlit_real (hxres : s.mVarInfo.xres = width.toNat)
    (hyres : s.mVarInfo.yres = height.toNat) :
    (fullBlit width height).wReal s = s.mVarInfo.xres ∧
      (fullBlit width height).hReal s = s.mVarInfo.yres := by
  unfold fullBlit BlitArgs.wReal BlitArgs.hReal realSize
  simp only [hxres, hyres]
  simp

theorem fullBlit_onScreen (hxres : s.mVarInfo.xres = width.toNat)
    (hyres : s.mVarInfo.yres = height.toNat) (hwidth : 0 < width.toNat)
    (hheight : 0 < height.toNat) : (fullBlit width height).OnScreen s := by
  refine ⟨?_, ?_⟩
  · show 0 < s.mVarInfo.xres
    omega
  · show 0 < s.mVarInfo.yres
    omega

/-- Behind a blit whose pan succeeds, the first surface is shown, unless it was
shown before; with one surface, what is in the local variable is kept. -/
theorem fullBlit_cur {u : FbState} (image : Image)
    (ha : (fullBlit width height).OnScreen u.surface)
    (hcur : u.surface.mNumSurfaces = 1 ∨ u.surface.mCurSurface ≠ 0) :
    (blitImage u (some image) (fullBlit width height)).state.surface.mCurSurface = 0 := by
  have hoff : ¬ ((fullBlit width height).x.toNat ≥ u.surface.mVarInfo.xres ∨
      (fullBlit width height).y.toNat ≥ u.surface.mVarInfo.yres) := by
    obtain ⟨hx, hy⟩ := ha
    omega
  unfold blitImage
  simp only [if_neg hoff, if_pos (show (fullBlit width height).panOk = true from rfl)]
  unfold chooseTarget
  by_cases hnum : u.surface.mNumSurfaces = 1
  · rw [if_pos hnum]
    rfl
  · rw [if_neg hnum, if_neg (hcur.resolve_left hnum)]
    split_ifs <;> rfl

/-- It reaches the last row of its surface. -/
theorem rows_of_blitFits (hs : Regular s) (hxres : s.mVarInfo.xres = width.toNat)
    (hyres : s.mVarInfo.yres = height.toNat) (hwidth : 0 < width.toNat)
    (hheight : 0 < height.toNat) (hfits : BlitFits s (fullBlit width height)) :
    targetBase s + ((s.mVarInfo.yres - 1) * s.mBytepl + s.mVarInfo.xres * s.bytespp)
      ≤ s.mapped := by
  have hbytes : 0 < s.mVarInfo.xres * s.bytespp := by
    refine Nat.mul_pos (by omega) ?_
    unfold HwalFBSurface.bytespp
    rcases hs.bits with h | h
    · omega
    · omega
  obtain ⟨hw, hh⟩ := fullBlit_real hxres hyres
  have hend := hfits (fullBlit_onScreen hxres hyres hwidth hheight)
  rw [hw, hh] at hend
  have hrow : rectRow s (fullBlit width height) (targetBase s) (s.mVarInfo.yres - 1)
      = targetBase s + (s.mVarInfo.yres - 1) * s.mBytepl := by
    show targetBase s + (0 * s.bytespp + (0 + (s.mVarInfo.yres - 1)) * s.mBytepl) = _
    rw [Nat.zero_mul, Nat.zero_add, Nat.zero_add]
  have hlast := hend hbytes (by omega)
  rw [hrow] at hlast
  omega

/-- A blit of the whole screen, and then a `clean` of it, find out a mapping that
is too small. -/
theorem Made.fits_of_meets {numSurfaces : UInt32} (hmade : Made width height numSurfaces s)
    (hwidth : 0 < width.toNat) (hheight : 0 < height.toNat)
    (hall : ∀ mem calls, (∀ c ∈ calls, c.InScreen width height) →
      Meets fbStep Inside (.start s mem) calls) : MappingFits s := by
  let image : Image := fun _ => 0
  let c : FbCall := .blitImage (some image) (fullBlit width height)
  let t : FbState := (c.run (.start s image)).state
  have hsame : SameMapping s t.surface := fbStep_same (s := .start s image) (c := c) rfl
  have hregular : Regular t.surface := hmade.regular.of_same hsame
  obtain ⟨hxres, hyres⟩ := hsame.xres_yres
  rw [hmade.xres] at hxres
  rw [hmade.yres] at hyres
  -- behind the blit, the surface that ends last is the next one, and there is a copy
  have hcur : t.surface.mCurSurface = 0 :=
    fullBlit_cur (u := .start s image) image
      (fullBlit_onScreen hmade.xres hmade.yres hwidth hheight)
      (.inr (by show s.mCurSurface ≠ 0; rw [hmade.curSurface]; decide))
  have hscreen : ∀ d ∈ [c, .clean true (fullBlit width height)], d.InScreen width height := by
    simp [c, FbCall.InScreen, fullBlit]
  obtain ⟨-, hclean, -⟩ := hall image _ hscreen
  obtain ⟨hcopy, hblit⟩ := (clean_inside_iff hregular true
    (a := fullBlit width height) (by rw [hxres, hyres]; simp [fullBlit])).mp hclean
  have hrows := rows_of_blitFits hregular hxres hyres hwidth hheight (hblit rfl)
  have htwice : 2 * t.surface.size ≤ t.surface.mapped := by
    unfold HwalFBSurface.size
    rw [hxres, hyres]
    exact hcopy (by rw [hcur]; decide)
  have hmapped : t.surface.mapped
      = u32 (t.surface.mVarInfo.yresVirtual * t.surface.mBytepl) := by
    rw [hsame.mapped, hmade.mapped, hsame.bytepl, hsame.varInfo]
  refine MappingFits.of_same ?_ hsame.symm
  unfold MappingFits
  rw [← hmapped]
  unfold targetBase at hrows
  by_cases hnum : t.surface.mNumSurfaces = 1
  · rw [if_neg (fun h => h.1 hnum), Nat.zero_add] at hrows
    rw [if_pos hnum]
    exact ⟨hrows, htwice⟩
  · rw [if_pos ⟨hnum, hcur⟩] at hrows
    rw [if_neg hnum]
    exact hrows

end FullBlit

/-- **The accesses of all runs** stay inside of the mapping exactly if it is
large enough for the mode that the driver left. -/
theorem accesses_inside_iff {dev : FbDevice} (hkeeps : dev.KeepsPicture)
    (hpitch : dev.ReportsPitch) {type : HwalSurfaceType} {width height : UInt16}
    {numSurfaces : UInt32} {s : HwalFBSurface}
    (hnew : newHwalFBSurface dev type width height numSurfaces = .ok s)
    (hwidth : 0 < width.toNat) (hheight : 0 < height.toNat) :
    (∀ mem calls, (∀ c ∈ calls, c.InScreen width height) →
        Meets fbStep Inside (.start s mem) calls) ↔ MappingFits s := by
  have hmade := made_new hkeeps hpitch hnew
  refine ⟨hmade.fits_of_meets hwidth hheight, fun hfits mem calls hscreen => ?_⟩
  refine (meets_congr (Q := fun _ _ => True) (I := fun t => SameMapping s t.surface)
    (fun t c t' ht hstep => ht.trans (fbStep_same hstep)) calls ?_ (.refl s)).mpr
    (meets_of_forall calls _ fun _ _ => trivial)
  intro t c hc hsame
  refine iff_of_true ?_ trivial
  have hregular : Regular t.surface := hmade.regular.of_same hsame
  obtain ⟨hxres, hyres⟩ := hsame.xres_yres
  rw [hmade.xres] at hxres
  rw [hmade.yres] at hyres
  have hmapped : t.surface.mapped
      = u32 (t.surface.mVarInfo.yresVirtual * t.surface.mBytepl) := by
    rw [hsame.mapped, hmade.mapped, hsame.bytepl, hsame.varInfo]
  obtain ⟨hrows, htwice⟩ := (hfits.of_same hsame).bounds hregular (by omega) hmapped
  have hblit : ∀ a, BlitFits t.surface a := fun a => blitFits_of_rows hrows
  cases c with
  | blitImage image a =>
      cases image with
      | none => exact fun off h => absurd h (blitImage_null_inside t a off)
      | some image => exact (blitImage_inside_iff hregular image).mpr (hblit a)
  | clean callocOk a =>
      have hin : a.x.toNat + a.width.toNat ≤ t.surface.mVarInfo.xres ∧
          a.y.toNat + a.height.toNat ≤ t.surface.mVarInfo.yres := by
        rw [hxres, hyres]
        exact hscreen _ hc
      exact (clean_inside_iff hregular callocOk hin).mpr
        ⟨copyFits_of_size hin htwice, fun _ => hblit a⟩

/-- Two surfaces of 2 by 2 pixels, or another number of them, with as many
lines. -/
def smallMode (numSurfaces lines : Nat) : HwalFBSurface where
  mapped := lines * 8
  mVarInfo := ⟨2, 2, 2, lines, 0, 32, 0, ⟨16, 8, 0⟩, ⟨8, 8, 0⟩, ⟨0, 8, 0⟩, ⟨24, 8, 0⟩⟩
  mBitspp := 32
  mBytepl := 8
  mNumSurfaces := numSurfaces
  mCurSurface := 255

/-- Two blits and a `clean` on two surfaces. -/
theorem two_surfaces_inside :
    newHwalFBSurface tightDevice .aRgb32 2 2 2 = .ok (smallMode 2 4) ∧
      Meets fbStep Inside (.start (smallMode 2 4) fun _ => 0)
        [.blitImage (some fun _ => 1) ⟨0, 0, 2, 2, true, 0⟩,
          .blitImage (some fun _ => 2) ⟨1, 1, 9, 9, true, 0⟩, .clean true ⟨0, 0, 2, 2, true, 0⟩] := by
  have hnew : newHwalFBSurface tightDevice .aRgb32 2 2 2 = .ok (smallMode 2 4) := rfl
  refine ⟨hnew, (accesses_inside_iff tightDevice_keeps tightDevice_pitch hnew (by decide)
    (by decide)).mpr (show 16 + 16 ≤ 32 by decide) _ _ ?_⟩
  simp [FbCall.InScreen]

/-- A run on one surface of 2 by 2 pixels, with 0 in the local variable. -/
def blitAndClean : List FbCall :=
  [.blitImage (some fun _ => 1) ⟨0, 0, 2, 2, true, 0⟩, .clean true ⟨0, 0, 2, 2, true, 0⟩]

/-- One surface: `clean` writes the 16 bytes behind the 16 that are mapped. -/
theorem one_surface_outside :
    tightDevice.ReportsPitch ∧
      newHwalFBSurface tightDevice .aRgb32 2 2 1 = .ok (smallMode 1 2) ∧
      (smallMode 1 2).mapped = 16 ∧ (∀ c ∈ blitAndClean, c.InScreen 2 2) ∧
      ∃ t, fbStep (.start (smallMode 1 2) fun _ => 0)
          (.blitImage (some fun _ => 1) ⟨0, 0, 2, 2, true, 0⟩) = some t ∧
        t.surface.mCurSurface = 0 ∧
        Access.write 16 1 ∈ (clean t true ⟨0, 0, 2, 2, true, 0⟩).accesses ∧
        ¬ Meets fbStep Inside (.start (smallMode 1 2) fun _ => 0) blitAndClean := by
  have hwrite : Access.write 16 1 ∈ (clean (blitImage (.start (smallMode 1 2) fun _ => 0)
      (some fun _ => 1) ⟨0, 0, 2, 2, true, 0⟩).state true ⟨0, 0, 2, 2, true, 0⟩).accesses := by
    decide +kernel
  refine ⟨tightDevice_pitch, rfl, rfl, by simp [blitAndClean, FbCall.InScreen], _, rfl, rfl,
    hwrite, ?_⟩
  rintro ⟨-, hclean, -⟩
  exact absurd (hclean 16 (.inr ⟨16, 1, hwrite, by decide, by decide⟩)) (by decide +kernel)

/-! ## §6. Modes with a mapping that is large enough. -/

section Modes

variable {s : HwalFBSurface}

/-- With two surfaces or more, the lines of two. -/
theorem mappingFits_of_lines (hs : Regular s) (hyres : 0 < s.mVarInfo.yres)
    (hnum : s.mNumSurfaces ≠ 1) (hlines : 2 * s.mVarInfo.yres ≤ s.mVarInfo.yresVirtual)
    (hwrap : s.mVarInfo.yresVirtual * s.mBytepl < 2 ^ 32) : MappingFits s := by
  have hsize := hs.size_le hyres
  have hpitch := hs.pitch
  have htwice : 2 * (s.mVarInfo.yres * s.mBytepl) ≤ s.mVarInfo.yresVirtual * s.mBytepl := by
    rw [← Nat.mul_assoc]
    exact Nat.mul_le_mul_right _ hlines
  have hlast : (s.mVarInfo.yres - 1) * s.mBytepl + s.mBytepl = s.mVarInfo.yres * s.mBytepl := by
    rw [← Nat.succ_mul, Nat.succ_eq_add_one, Nat.sub_add_cancel hyres]
  unfold MappingFits
  rw [if_neg hnum, u32_of_lt hwrap]
  omega

/-- With one surface and its own lines, lines that are half empty. -/
theorem mappingFits_one_iff (hs : Regular s) (hyres : 0 < s.mVarInfo.yres)
    (hnum : s.mNumSurfaces = 1) (hlines : s.mVarInfo.yresVirtual = s.mVarInfo.yres) :
    MappingFits s ↔ 2 * (s.mVarInfo.xres * s.bytespp) ≤ s.mBytepl := by
  have hpitch := hs.pitch
  have hlast : (s.mVarInfo.yres - 1) * s.mBytepl + s.mBytepl = s.mVarInfo.yres * s.mBytepl := by
    rw [← Nat.succ_mul, Nat.succ_eq_add_one, Nat.sub_add_cancel hyres]
  have hwrap : s.mVarInfo.yres * s.mBytepl ≤ 1080 * 65535 :=
    Nat.mul_le_mul hs.yres (Nat.le_of_lt_succ hs.bytepl)
  have hsize : 2 * s.size = s.mVarInfo.yres * (2 * (s.mVarInfo.xres * s.bytespp)) := by
    unfold HwalFBSurface.size
    rw [Nat.mul_comm s.mVarInfo.xres, Nat.mul_assoc, Nat.mul_left_comm]
  unfold MappingFits
  rw [if_pos hnum, hlines, u32_of_lt (by omega), hsize]
  constructor
  · exact fun h => Nat.le_of_mul_le_mul_left h.2 hyres
  · exact fun h => ⟨by omega, Nat.mul_le_mul_left _ h⟩

end Modes

end MesonDisplay.Surface
