/-
  MesonDisplay.Surface.CleanRect — erasing a rectangle.

  `clean` of a rectangle is meant to copy the displayed surface to the other one,
  to blit zeros there, and to flip.  What it copies is as long as the rectangle,
  from the beginning of the mapping or to it, so only a rectangle that is the
  whole screen gets a copy of the whole surface.

  Main results:
    * `copyBytes_inside`, `copyBytes_outside` — the loops that copy.
    * `full_of_erased` — a rectangle is erased only if it is the whole screen.
    * `clean_erases_iff` — and then it is.
-/
import MesonDisplay.Surface.Pitch

namespace MesonDisplay.Surface

open MesonDisplay.Blit

/-! ## §1. The loops. -/

section Copy

variable {mem : Nat → UInt8} {dst src : Nat → Nat} {n off : Nat}

theorem copyBytes_succ :
    (copyBytes mem dst src (n + 1)).1
      = copyInto (copyBytes mem dst src n).1 (dst n) (fun _ => (copyBytes mem dst src n).1 (src n))
          1 := rfl

theorem copyBytes_outside (hoff : ∀ i, i < n → dst i ≠ off) :
    (copyBytes mem dst src n).1 off = mem off := by
  induction n with
  | zero => rfl
  | succ n ih =>
      have hlast := hoff n (Nat.lt_succ_self n)
      rw [copyBytes_succ, copyInto_outside (by omega)]
      exact ih fun i hi => hoff i (Nat.lt_succ_of_lt hi)

/-- A byte that is copied, if none is overwritten before it is read. -/
theorem copyBytes_inside (hfresh : ∀ i j, i < j → j < n → dst i ≠ src j)
    (hinj : ∀ i j, i < j → j < n → dst i ≠ dst j) {i : Nat} (hi : i < n) :
    (copyBytes mem dst src n).1 (dst i) = mem (src i) := by
  induction n with
  | zero => exact absurd hi (Nat.not_lt_zero i)
  | succ n ih =>
      rw [copyBytes_succ]
      rcases Nat.lt_succ_iff_lt_or_eq.mp hi with hlt | rfl
      · have hlast := hinj i n hlt (Nat.lt_succ_self n)
        rw [copyInto_outside (by omega)]
        exact ih (fun i j hij hj => hfresh i j hij (Nat.lt_succ_of_lt hj))
          (fun i j hij hj => hinj i j hij (Nat.lt_succ_of_lt hj)) hlt
      · have hsrc : (copyBytes mem dst src i).1 (src i) = mem (src i) :=
          copyBytes_outside fun j hj => hfresh j i hj (Nat.lt_succ_self i)
        exact Eq.trans (copyInto_inside (k := 0) Nat.zero_lt_one) hsrc

end Copy

/-- `buffer_len` of `clean`. -/
def BlitArgs.cleanLen (a : BlitArgs) (s : HwalFBSurface) : Nat :=
  u32 (a.width.toNat * a.height.toNat * s.mBitspp / 8)

/-- The memory behind the loops of `clean`. -/
def cleanMem (s : FbState) (a : BlitArgs) : Nat → UInt8 :=
  if s.surface.mCurSurface = 0 then
    (copyBytes s.mem (fun i => u32 (i + a.cleanLen s.surface)) (fun i => i)
      (a.cleanLen s.surface)).1
  else if s.surface.mCurSurface = 1 then
    (copyBytes s.mem (fun i => i) (fun i => u32 (i + a.cleanLen s.surface))
      (a.cleanLen s.surface)).1
  else s.mem

/-- Behind the loops, `clean` is a blit of zeros. -/
theorem clean_eq (s : FbState) (callocOk : Bool) (a : BlitArgs) :
    (clean s callocOk a).state
        = (blitImage { s with mem := cleanMem s a } (if callocOk then some fun _ => 0 else none)
            a).state ∧
      (clean s callocOk a).ret
        = (blitImage { s with mem := cleanMem s a } (if callocOk then some fun _ => 0 else none)
            a).ret := by
  unfold clean cleanMem BlitArgs.cleanLen
  dsimp only
  split_ifs
  · exact ⟨rfl, rfl⟩
  · exact ⟨rfl, rfl⟩
  · exact ⟨rfl, rfl⟩
  · exact ⟨rfl, rfl⟩
  · exact ⟨rfl, rfl⟩
  · exact ⟨rfl, rfl⟩

section Loops

variable {s : FbState} {a : BlitArgs} {len : Nat}

/-- From the first surface to the bytes behind. -/
theorem cleanMem_first (hcur : s.surface.mCurSurface = 0) (hlen : a.cleanLen s.surface = len)
    (hwrap : 2 * len ≤ 2 ^ 32) (off : Nat) :
    cleanMem s a off = if len ≤ off ∧ off < 2 * len then s.mem (off - len) else s.mem off := by
  unfold cleanMem
  rw [if_pos hcur, hlen]
  have hdst : ∀ i, i < len → u32 (i + len) = i + len := fun i hi => u32_of_lt (by omega)
  split_ifs with hoff
  · have hlast : off - len < len := by omega
    have hcopy : (copyBytes s.mem (fun i => u32 (i + len)) (fun i => i) len).1
        (u32 (off - len + len)) = s.mem (off - len) :=
      copyBytes_inside (by intro i j hij hj; rw [hdst i (by omega)]; omega)
        (by intro i j hij hj; rw [hdst i (by omega), hdst j hj]; omega) hlast
    rw [hdst _ hlast, show off - len + len = off by omega] at hcopy
    exact hcopy
  · refine copyBytes_outside fun i hi => ?_
    rw [hdst i hi]
    omega

/-- From the bytes behind to the first surface. -/
theorem cleanMem_second (hcur : s.surface.mCurSurface = 1) (hlen : a.cleanLen s.surface = len)
    (hwrap : 2 * len ≤ 2 ^ 32) (off : Nat) :
    cleanMem s a off = if off < len then s.mem (off + len) else s.mem off := by
  unfold cleanMem
  rw [if_neg (by omega), if_pos hcur, hlen]
  have hsrc : ∀ i, i < len → u32 (i + len) = i + len := fun i hi => u32_of_lt (by omega)
  split_ifs with hoff
  · have hcopy : (copyBytes s.mem (fun i => i) (fun i => u32 (i + len)) len).1 off
        = s.mem (u32 (off + len)) :=
      copyBytes_inside (by intro i j hij hj; rw [hsrc j hj]; omega)
        (by intro i j hij hj; omega) hoff
    rw [hsrc off hoff] at hcopy
    exact hcopy
  · exact copyBytes_outside fun i hi => by omega

end Loops

/-! ## §2. An erased rectangle. -/

/-- A surface without padding, of which `mCurSurface` is displayed. -/
structure Showing (s : FbState) : Prop where
  sized : Sized s.surface
  surfaces : 2 ≤ s.surface.mNumSurfaces
  tight : s.surface.mVarInfo.xres * s.surface.bytespp = s.surface.mBytepl
  cur : s.surface.mCurSurface = 0 ∨ s.surface.mCurSurface = 1
  panned : s.panned = some (s.surface.mCurSurface * s.surface.mVarInfo.yres)

/-- The rectangle ends on the screen. -/
def BlitArgs.Inside (a : BlitArgs) (s : HwalFBSurface) : Prop :=
  a.x.toNat + a.width.toNat ≤ s.mVarInfo.xres ∧ a.y.toNat + a.height.toNat ≤ s.mVarInfo.yres

/-- The rectangle is the screen. -/
def BlitArgs.FullScreen (a : BlitArgs) (s : HwalFBSurface) : Prop :=
  a.width.toNat = s.mVarInfo.xres ∧ a.height.toNat = s.mVarInfo.yres

/-- An offset in a surface that is in the rectangle. -/
def BlitArgs.Covers (a : BlitArgs) (s : HwalFBSurface) (off : Nat) : Prop :=
  InRows (rectRow s a 0) (a.width.toNat * s.bytespp) a.height.toNat off

/-- The rectangle is erased: its size in bits is a value of an int, the surface
that was displayed is as it was, and the one that is displayed is equal to it
outside of the rectangle, and 0 inside. -/
structure Erased (s s' : FbState) (a : BlitArgs) : Prop where
  defined : a.width.toNat * a.height.toNat * s.surface.mBitspp < 2 ^ 31
  kept : ∀ off, off < s.surface.mVarInfo.yres * s.surface.mBytepl →
    s'.mem (s.surface.mCurSurface * s.surface.mVarInfo.yres * s.surface.mBytepl + off)
      = s.mem (s.surface.mCurSurface * s.surface.mVarInfo.yres * s.surface.mBytepl + off)
  shown : ∃ yoffset, s'.panned = some yoffset ∧
    ∀ off, off < s.surface.mVarInfo.yres * s.surface.mBytepl →
      (a.Covers s.surface off → s'.mem (yoffset * s.surface.mBytepl + off) = 0) ∧
      (¬ a.Covers s.surface off → s'.mem (yoffset * s.surface.mBytepl + off)
        = s.mem (s.surface.mCurSurface * s.surface.mVarInfo.yres * s.surface.mBytepl + off))

/-- A `clean` that succeeds erases its rectangle. -/
def CleanErases (s : FbState) (callocOk : Bool) (a : BlitArgs) : Prop :=
  (clean s callocOk a).ret = .success → Erased s (clean s callocOk a).state a

section Erase

variable {s : FbState} {a : BlitArgs}

/-- `clean` succeeds if there is memory, the rectangle begins on the screen, and
the pan succeeds. -/
theorem clean_success_iff (s : FbState) (callocOk : Bool) (a : BlitArgs) :
    (clean s callocOk a).ret = .success ↔
      callocOk = true ∧ a.OnScreen s.surface ∧ a.panOk = true := by
  rw [(clean_eq s callocOk a).2]
  cases callocOk with
  | false => simp [blitImage]
  | true =>
      by_cases ha : a.OnScreen s.surface
      · obtain ⟨hx, hy⟩ := id ha
        have hoff : ¬ (a.x.toNat ≥ s.surface.mVarInfo.xres ∨
            a.y.toNat ≥ s.surface.mVarInfo.yres) := by omega
        unfold blitImage
        by_cases hpan : a.panOk = true
        · simp [hoff, hpan, ha]
        · simp [hoff, hpan]
      · rw [if_pos rfl, blitImage_invalid (s := { s with mem := cleanMem s a }) (.inr ha)]
        simp [ha]

theorem Showing.fits (hs : Showing s) (ha : a.OnScreen s.surface) : FitsLines s.surface a :=
  fitsLines hs.sized (Nat.le_of_eq hs.tight) ha

/-- A rectangle that ends on the screen is not clipped. -/
theorem real_of_inside (hin : a.Inside s.surface) :
    a.wReal s.surface = a.width.toNat ∧ a.hReal s.surface = a.height.toNat := by
  obtain ⟨hx, hy⟩ := hin
  exact ⟨if_neg (by omega), if_neg (by omega)⟩

/-- The rows of the rectangle, in the surface that is blitted into. -/
def cleanRow (s : FbState) (a : BlitArgs) : Nat → Nat :=
  rectRow s.surface a (a.target s.surface).fbuffer

/-- The memory behind a `clean` that succeeds. -/
theorem Showing.clean_mem (hs : Showing s) (ha : a.OnScreen s.surface) (hin : a.Inside s.surface)
    (off : Nat) :
    (InRows (cleanRow s a) (a.width.toNat * s.surface.bytespp) a.height.toNat off →
        (clean s true a).state.mem off = 0) ∧
      (¬ InRows (cleanRow s a) (a.width.toNat * s.surface.bytespp) a.height.toNat off →
        (clean s true a).state.mem off = cleanMem s a off) := by
  have f := hs.fits ha
  obtain ⟨hw, hh⟩ := real_of_inside hin
  have hmem := (clean_eq s true a).1
  rw [if_pos rfl] at hmem
  rw [hmem, FitsLines.mem_eq (s := { s with mem := cleanMem s a }) f, hw, hh]
  refine ⟨?_, fun hout => copyRows_outside hout⟩
  rintro ⟨i, hi, hle, hlt⟩
  have hapart : ∀ i j, i < j → j < a.height.toNat →
      cleanRow s a i + a.width.toNat * s.surface.bytespp ≤ cleanRow s a j := by
    intro i j hij _
    have hrow := rectRow_apart f.width (a.target s.surface).fbuffer hij
    rwa [hw] at hrow
  have hrow : copyRows (cleanMem s a) (cleanRow s a) (fun _ _ => 0)
      (a.width.toNat * s.surface.bytespp) a.height.toNat
      (cleanRow s a i + (off - cleanRow s a i)) = 0 :=
    copyRows_inside hapart hi (by omega)
  rwa [show cleanRow s a i + (off - cleanRow s a i) = off by omega] at hrow

theorem Showing.line_pos (hs : Showing s) (ha : a.OnScreen s.surface) : 0 < s.surface.mBytepl := by
  rw [← hs.tight]
  exact Nat.mul_pos (Nat.lt_of_le_of_lt (Nat.zero_le _) ha.1) hs.sized.bytespp_pos

/-- The first byte, if there is a column or a row in front of the rectangle. -/
theorem Showing.not_covers_first (hs : Showing s) (ha : a.OnScreen s.surface)
    (hbefore : 0 < a.x.toNat ∨ 0 < a.y.toNat) : ¬ a.Covers s.surface 0 := by
  unfold BlitArgs.Covers InRows rectRow
  rintro ⟨i, -, hle, -⟩
  rcases hbefore with hcolumn | hrow
  · have hpos := Nat.mul_pos hcolumn hs.sized.bytespp_pos
    omega
  · have hpos : 0 < (a.y.toNat + i) * s.surface.mBytepl :=
      Nat.mul_pos (by omega) (hs.line_pos ha)
    omega

/-- The column behind a rectangle in the corner. -/
theorem Showing.not_covers_column (hs : Showing s) (hx0 : a.x.toNat = 0) (hy0 : a.y.toNat = 0)
    (hw : a.width.toNat < s.surface.mVarInfo.xres) :
    a.width.toNat * s.surface.bytespp < s.surface.mBytepl ∧
      ¬ a.Covers s.surface (a.width.toNat * s.surface.bytespp) := by
  have hgap : a.width.toNat * s.surface.bytespp < s.surface.mBytepl := by
    rw [← hs.tight]
    exact Nat.mul_lt_mul_of_pos_right hw hs.sized.bytespp_pos
  refine ⟨hgap, ?_⟩
  unfold BlitArgs.Covers InRows rectRow
  simp only [hx0, hy0, Nat.zero_mul, Nat.zero_add]
  rintro ⟨i, -, hle, hlt⟩
  cases i with
  | zero => omega
  | succ i =>
      rw [Nat.succ_mul] at hle
      omega

/-- The row behind it. -/
theorem Showing.not_covers_row (hs : Showing s) (hx0 : a.x.toNat = 0) (hy0 : a.y.toNat = 0)
    (hw : a.width.toNat ≤ s.surface.mVarInfo.xres) :
    ¬ a.Covers s.surface (a.height.toNat * s.surface.mBytepl) := by
  have hwidth : a.width.toNat * s.surface.bytespp ≤ s.surface.mBytepl := by
    rw [← hs.tight]
    exact Nat.mul_le_mul_right _ hw
  unfold BlitArgs.Covers InRows rectRow
  simp only [hx0, hy0, Nat.zero_mul, Nat.zero_add]
  rintro ⟨i, hi, -, hlt⟩
  have hnext : i * s.surface.mBytepl + s.surface.mBytepl
      ≤ a.height.toNat * s.surface.mBytepl := by
    rw [← Nat.succ_mul]
    exact Nat.mul_le_mul_right _ hi
  omega

/-- A rectangle that is not the screen leaves a byte of the surface out. -/
theorem exists_uncovered (hs : Showing s) (ha : a.OnScreen s.surface) (hin : a.Inside s.surface)
    (hfull : ¬ a.FullScreen s.surface) :
    ∃ off, off < s.surface.mVarInfo.yres * s.surface.mBytepl ∧ ¬ a.Covers s.surface off := by
  obtain ⟨hwidth, hheight⟩ := hin
  have hline := hs.line_pos ha
  have hlines : s.surface.mBytepl ≤ s.surface.mVarInfo.yres * s.surface.mBytepl :=
    Nat.le_mul_of_pos_left _ (Nat.lt_of_le_of_lt (Nat.zero_le _) ha.2)
  by_cases hbefore : 0 < a.x.toNat ∨ 0 < a.y.toNat
  · exact ⟨0, by omega, hs.not_covers_first ha hbefore⟩
  · have hx0 : a.x.toNat = 0 := by omega
    have hy0 : a.y.toNat = 0 := by omega
    by_cases hw : a.width.toNat < s.surface.mVarInfo.xres
    · obtain ⟨hgap, hcolumn⟩ := hs.not_covers_column hx0 hy0 hw
      exact ⟨_, by omega, hcolumn⟩
    · have hh : a.height.toNat < s.surface.mVarInfo.yres := by
        unfold BlitArgs.FullScreen at hfull
        omega
      exact ⟨_, Nat.mul_lt_mul_of_pos_right hh hline,
        hs.not_covers_row hx0 hy0 (by omega)⟩

/-- `buffer_len` of `clean` is the size of the rectangle in bytes. -/
theorem Showing.cleanLen_eq (hs : Showing s)
    (hdefined : a.width.toNat * a.height.toNat * s.surface.mBitspp < 2 ^ 31) :
    a.cleanLen s.surface = a.width.toNat * a.height.toNat * s.surface.bytespp ∧
      8 * (a.width.toNat * a.height.toNat * s.surface.bytespp) < 2 ^ 31 := by
  have hbits := hs.sized.mul_bits (a.width.toNat * a.height.toNat)
  rw [hs.sized.bitspp, hbits] at hdefined
  unfold BlitArgs.cleanLen
  rw [hs.sized.bitspp, hbits, u32_of_lt (by omega)]
  omega

/-- The rectangle is as large as a surface only if it is the screen. -/
theorem Showing.len_lt (hs : Showing s) (ha : a.OnScreen s.surface) (hin : a.Inside s.surface)
    (hfull : ¬ a.FullScreen s.surface) :
    a.width.toNat * a.height.toNat * s.surface.bytespp
      < s.surface.mVarInfo.yres * s.surface.mBytepl := by
  obtain ⟨hx, hy⟩ := ha
  obtain ⟨hwidth, hheight⟩ := hin
  have hyres : 0 < s.surface.mVarInfo.yres := Nat.lt_of_le_of_lt (Nat.zero_le _) hy
  rw [← hs.tight, ← Nat.mul_assoc, Nat.mul_comm s.surface.mVarInfo.yres]
  refine Nat.mul_lt_mul_of_pos_right ?_ hs.sized.bytespp_pos
  by_cases hw : a.width.toNat < s.surface.mVarInfo.xres
  · exact Nat.mul_lt_mul_of_lt_of_le hw (by omega) hyres
  · have hh : a.height.toNat < s.surface.mVarInfo.yres := by
      unfold BlitArgs.FullScreen at hfull
      omega
    exact Nat.mul_lt_mul_of_le_of_lt (by omega) hh (by omega)

/-- The row that the display is panned to. -/
theorem Showing.clean_panned (hs : Showing s) (ha : a.OnScreen s.surface)
    (hpan : a.panOk = true) :
    (clean s true a).state.panned
      = some (if s.surface.mCurSurface = 0 then s.surface.mVarInfo.yres else 0) := by
  have htarget := target_eq a hs.surfaces (.inr hs.cur)
  rw [(clean_eq s true a).1, if_pos rfl]
  exact Eq.trans (blitImage_panned (s := { s with mem := cleanMem s a }) _ ha hpan)
    (congrArg some htarget.1)

/-- A memory in which one byte is 1. -/
def pointMem (off : Nat) : Nat → UInt8 := fun off' => if off' = off then 1 else 0

theorem pointMem_ne {off off' : Nat} (h : off' ≠ off) : pointMem off off' ≠ 1 := by
  unfold pointMem
  rw [if_neg h]
  decide

/-- A byte of the displayed surface is not found at its place in the other one,
if less than a surface was copied. -/
theorem Showing.cleanMem_ne (hs : Showing s) {off : Nat}
    (hdefined : a.width.toNat * a.height.toNat * s.surface.mBitspp < 2 ^ 31)
    (hlt : a.width.toNat * a.height.toNat * s.surface.bytespp
      < s.surface.mVarInfo.yres * s.surface.mBytepl)
    (hmem : s.mem = pointMem
      (s.surface.mCurSurface * s.surface.mVarInfo.yres * s.surface.mBytepl + off)) :
    cleanMem s a ((if s.surface.mCurSurface = 0 then s.surface.mVarInfo.yres else 0)
      * s.surface.mBytepl + off) ≠ 1 := by
  obtain ⟨hlen, hwrap⟩ := hs.cleanLen_eq hdefined
  rcases hs.cur with hcur | hcur
  · rw [hcur, Nat.zero_mul, Nat.zero_mul, Nat.zero_add] at hmem
    rw [if_pos hcur, cleanMem_first hcur hlen (by omega), hmem]
    split_ifs
    · exact pointMem_ne (by omega)
    · exact pointMem_ne (by omega)
  · rw [hcur, Nat.one_mul] at hmem
    rw [if_neg (by omega), Nat.zero_mul, Nat.zero_add, cleanMem_second hcur hlen (by omega), hmem]
    split_ifs
    · exact pointMem_ne (by omega)
    · exact pointMem_ne (by omega)

/-- **Only the whole screen is erased**: otherwise a byte that is left out is
not the one of the displayed surface. -/
theorem Showing.full_of_erased (hs : Showing s) (ha : a.OnScreen s.surface)
    (hin : a.Inside s.surface) (hpan : a.panOk = true)
    (hall : ∀ mem, CleanErases { s with mem := mem } true a) : a.FullScreen s.surface := by
  by_contra hfull
  obtain ⟨off, hoff, huncovered⟩ := exists_uncovered hs ha hin hfull
  let t : FbState := { s with
    mem := pointMem (s.surface.mCurSurface * s.surface.mVarInfo.yres * s.surface.mBytepl + off) }
  have ht : Showing t := ⟨hs.sized, hs.surfaces, hs.tight, hs.cur, hs.panned⟩
  have herased : Erased t (clean t true a).state a :=
    hall _ ((clean_success_iff t true a).mpr ⟨rfl, ha, hpan⟩)
  obtain ⟨yoffset, hpanned, hshown⟩ := herased.shown
  rw [ht.clean_panned ha hpan] at hpanned
  obtain rfl := Option.some.inj hpanned
  -- the byte was 1, and is 0 or the one that was copied
  have hone : (clean t true a).state.mem _ = 1 :=
    Eq.trans ((hshown off hoff).2 huncovered) (if_pos rfl)
  obtain ⟨hzero, hcopied⟩ := ht.clean_mem ha hin
    ((if t.surface.mCurSurface = 0 then t.surface.mVarInfo.yres else 0) * t.surface.mBytepl + off)
  by_cases hrows : InRows (cleanRow t a) (a.width.toNat * t.surface.bytespp) a.height.toNat
      ((if t.surface.mCurSurface = 0 then t.surface.mVarInfo.yres else 0) * t.surface.mBytepl + off)
  · rw [hzero hrows] at hone
    exact absurd hone (by decide)
  · rw [hcopied hrows] at hone
    exact ht.cleanMem_ne herased.defined (hs.len_lt ha hin hfull) rfl hone

/-- The rows of the screen are a whole surface. -/
theorem Showing.inRows_full (hs : Showing s) (ha : a.OnScreen s.surface)
    (hin : a.Inside s.surface) (hfull : a.FullScreen s.surface) (base off : Nat) :
    InRows (rectRow s.surface a base) (a.width.toNat * s.surface.bytespp) a.height.toNat off ↔
      base ≤ off ∧ off < base + s.surface.mVarInfo.yres * s.surface.mBytepl := by
  obtain ⟨hwidth, hheight⟩ := hfull
  have hx0 : a.x.toNat = 0 := by
    have := hin.1
    omega
  have hy0 : a.y.toNat = 0 := by
    have := hin.2
    omega
  have hline := hs.line_pos ha
  unfold InRows rectRow
  rw [hwidth, hheight, hs.tight, hx0, hy0]
  simp only [Nat.zero_mul, Nat.zero_add]
  constructor
  · rintro ⟨i, hi, hle, hlt⟩
    have hnext : i * s.surface.mBytepl + s.surface.mBytepl
        ≤ s.surface.mVarInfo.yres * s.surface.mBytepl := by
      rw [← Nat.succ_mul]
      exact Nat.mul_le_mul_right _ hi
    omega
  · rintro ⟨hle, hlt⟩
    -- the row is found by a division
    have hdiv := Nat.div_add_mod (off - base) s.surface.mBytepl
    have hmod := Nat.mod_lt (off - base) hline
    rw [Nat.mul_comm] at hdiv
    exact ⟨(off - base) / s.surface.mBytepl, Nat.div_lt_of_lt_mul (by rw [Nat.mul_comm]; omega),
      by omega, by omega⟩

/-- The whole screen is erased. -/
theorem Showing.erased_of_full (hs : Showing s) (ha : a.OnScreen s.surface)
    (hin : a.Inside s.surface) (hpan : a.panOk = true) (hfull : a.FullScreen s.surface)
    (hdefined : a.width.toNat * a.height.toNat * s.surface.mBitspp < 2 ^ 31) :
    Erased s (clean s true a).state a := by
  obtain ⟨hlen, hwrap⟩ := hs.cleanLen_eq hdefined
  obtain ⟨-, hfbuffer⟩ := target_eq a hs.surfaces (.inr hs.cur)
  have hsize : a.width.toNat * a.height.toNat * s.surface.bytespp
      = s.surface.mVarInfo.yres * s.surface.mBytepl := by
    rw [hfull.1, hfull.2, ← hs.tight, ← size_eq]
    rfl
  rw [hsize] at hlen hwrap
  have hbuffer : s.surface.bufferLen = s.surface.mVarInfo.yres * s.surface.mBytepl := by
    rw [hs.sized.bufferLen_eq, size_eq, hs.tight, u32_of_lt (by omega)]
    omega
  have hrows : ∀ off, InRows (cleanRow s a) (a.width.toNat * s.surface.bytespp) a.height.toNat off ↔
      (a.target s.surface).fbuffer ≤ off ∧
        off < (a.target s.surface).fbuffer + s.surface.mVarInfo.yres * s.surface.mBytepl :=
    hs.inRows_full ha hin hfull _
  have hcovers : ∀ off, off < s.surface.mVarInfo.yres * s.surface.mBytepl →
      a.Covers s.surface off :=
    fun off hoff => (hs.inRows_full ha hin hfull 0 off).mpr ⟨Nat.zero_le _, by omega⟩
  refine ⟨hdefined, ?_, _, hs.clean_panned ha hpan, ?_⟩
  · intro off hoff
    -- the zeros are in the other surface, and so is the copy
    refine ((hs.clean_mem ha hin _).2 fun h => ?_).trans ?_
    · have hrange := (hrows _).mp h
      rcases hs.cur with hcur | hcur
      · rw [hfbuffer, if_pos hcur, hbuffer, hcur] at hrange
        omega
      · rw [hfbuffer, if_neg (by omega), hcur, Nat.one_mul] at hrange
        omega
    · rcases hs.cur with hcur | hcur
      · rw [cleanMem_first hcur hlen (by omega), if_neg]
        rw [hcur]
        omega
      · rw [cleanMem_second hcur hlen (by omega), if_neg]
        rw [hcur, Nat.one_mul]
        omega
  · intro off hoff
    refine ⟨fun _ => (hs.clean_mem ha hin _).1 ((hrows _).mpr ?_), fun h => absurd (hcovers off hoff) h⟩
    rcases hs.cur with hcur | hcur
    · rw [hfbuffer, if_pos hcur, hbuffer, if_pos hcur]
      omega
    · rw [hfbuffer, if_neg (by omega), if_neg (by omega)]
      omega

end Erase

/-- **A rectangle is erased** exactly if it is the whole screen, and its size in
bits is a value of an int. -/
theorem clean_erases_iff {s : FbState} {a : BlitArgs} (callocOk : Bool) (hs : Showing s)
    (hin : a.Inside s.surface) :
    (∀ mem, CleanErases { s with mem := mem } callocOk a) ↔
      (callocOk = true → a.panOk = true → a.OnScreen s.surface →
        a.FullScreen s.surface ∧
          a.width.toNat * a.height.toNat * s.surface.mBitspp < 2 ^ 31) := by
  constructor
  · rintro hall rfl hpan ha
    refine ⟨hs.full_of_erased ha hin hpan hall, ?_⟩
    exact (hall s.mem ((clean_success_iff _ true a).mpr ⟨rfl, ha, hpan⟩)).defined
  · intro hcond mem hsuccess
    obtain ⟨rfl, ha, hpan⟩ := (clean_success_iff _ callocOk a).mp hsuccess
    obtain ⟨hfull, hdefined⟩ := hcond rfl hpan ha
    have ht : Showing { s with mem := mem } :=
      ⟨hs.sized, hs.surfaces, hs.tight, hs.cur, hs.panned⟩
    exact ht.erased_of_full ha hin hpan hfull hdefined

/-- The first of two surfaces is shown. -/
def smallState (mem : Nat → UInt8) : FbState := ⟨smallSurface 8 0, mem, some 0⟩

theorem smallState_showing (mem : Nat → UInt8) : Showing (smallState mem) where
  sized := smallSurface_sized (by decide)
  surfaces := Nat.le_refl 2
  tight := show 2 * (32 / 8) = 8 by decide
  cur := .inl rfl
  panned := rfl

/-- The whole screen. -/
theorem clean_erases_screen :
    (∀ mem, CleanErases { smallState fun _ => 0 with mem := mem } true ⟨0, 0, 2, 2, true, 0⟩) ↔
      (true = true → true = true →
        BlitArgs.OnScreen ⟨0, 0, 2, 2, true, 0⟩ (smallState fun _ => 0).surface →
        BlitArgs.FullScreen ⟨0, 0, 2, 2, true, 0⟩ (smallState fun _ => 0).surface ∧
          2 * 2 * 32 < 2 ^ 31) :=
  clean_erases_iff true (smallState_showing _) ⟨by decide, by decide⟩

/-- One pixel.  The copy overwrites the next pixel on the display, and the
surface that is shown next has none of the others. -/
theorem clean_spoils_neighbour :
    let s := smallState fun off => if off < 4 then 7 else 5
    let a : BlitArgs := ⟨0, 0, 1, 1, true, 0⟩
    Showing s ∧ a.Inside s.surface ∧ (clean s true a).ret = .success ∧ ¬ CleanErases s true a := by
  refine ⟨smallState_showing _, ⟨by decide, by decide⟩, rfl, ?_⟩
  intro herases
  have herased : Erased (smallState fun off => if off < 4 then 7 else 5) _
    ⟨0, 0, 1, 1, true, 0⟩ := herases rfl
  exact absurd (herased.kept 4 (by decide)) (by decide)

end MesonDisplay.Surface
