/-
  `convertSTEYUV420PackedSemiPlanarMB`: what `OK` says about the crop rectangle.

  The function is to refuse what it cannot convert completely.  The test it begins with asks for the
  crop rectangle of the source to begin at the origin and for that of the destination to be of the
  same size.  It does not ask where the latter begins, and the loops always write from the origin of
  the destination; nor whether the rectangle fits in the whole blocks that the loops walk over, and
  in the destination.  Where it does not (`Fits`), some pixel of the rectangle is left as it was or
  shows another one.

  The pixel at the corner decides about the first: it has the value of source pixel `(0, 0)` for all
  contents only if it is the pixel at the origin, for a picture with a single bright sample tells
  any two pixels apart.  The pixels furthest right and furthest down decide about the second.
-/
import Codina.Media.ConvertedPixels

namespace Codina.Media

open Codina.Bytes Codina.Loops

/-! ## The crop rectangle -/

/-- The RGB565 value of a pixel of the source. -/
def sourcePixel (mBits : Mem) (src : BitmapParams) (x y : Nat) : BitVec 16 :=
  rgb565 (mBits (lumaAt (src.mWidth.toNat / 16) x y))
    (mBits (chromaAt (src.mWidth.toNat / 16) (src.mHeight.toNat / 16) x y))
    (mBits (chromaAt (src.mWidth.toNat / 16) (src.mHeight.toNat / 16) x y + 1))

/-- Pixel `(x, y)` of the destination exists, and the last value written to it is `v`. -/
def PixelIs (dst : BitmapParams) (t : Trace) (x y : Nat) (v : BitVec 16) : Prop :=
  x < dst.mWidth.toNat ∧ y < dst.mHeight.toNat ∧
    (pixelsWritten t (2 * (y * dst.mWidth.toNat + x))).getLast? = some v

/-- Every pixel of the crop rectangle has been written, from the source pixel with its coordinates
    within the rectangle. -/
def CropConverted (mBits : Mem) (src dst : BitmapParams) (t : Trace) : Prop :=
  ∀ x y, x < dst.cropWidth.toNat → y < dst.cropHeight.toNat →
    PixelIs dst t (dst.mCropLeft.toNat + x) (dst.mCropTop.toNat + y) (sourcePixel mBits src x y)

/-- The crop rectangle of the destination is empty, or it begins at the origin and lies within the
    destination and the whole blocks of the source. -/
def Fits (src dst : BitmapParams) : Prop :=
  dst.cropWidth.toNat = 0 ∨ dst.cropHeight.toNat = 0 ∨
    (dst.mCropLeft.toNat = 0 ∧ dst.mCropTop.toNat = 0 ∧
      dst.cropWidth.toNat ≤ min dst.mWidth.toNat (16 * (src.mWidth.toNat / 16)) ∧
      dst.cropHeight.toNat ≤ min dst.mHeight.toNat (16 * (src.mHeight.toNat / 16)))

instance (src dst : BitmapParams) : Decidable (Fits src dst) :=
  inferInstanceAs (Decidable (_ ∨ _))

/-! ## The pixels of a picture -/

theorem pixel_of_covered (mBits : Mem) {src dst : BitmapParams}
    (hs : Sizes dst (src.mWidth.toNat / 16) (src.mHeight.toNat / 16)) {x y : Nat}
    (hc : Covered dst (src.mWidth.toNat / 16) (src.mHeight.toNat / 16) x y) :
    PixelIs dst (pictureAccesses mBits dst (src.mWidth.toNat / 16) (src.mHeight.toNat / 16)) x y
      (sourcePixel mBits src x y) := by
  refine ⟨Nat.lt_of_lt_of_le hc.1 (Nat.min_le_left ..),
    Nat.lt_of_lt_of_le hc.2 (Nat.min_le_left ..), ?_⟩
  rw [written_once hs hc]
  rfl

/-- A pixel that has been written is a covered one, and has its own value. -/
theorem covered_of_pixel {mBits : Mem} {src dst : BitmapParams}
    (hs : Sizes dst (src.mWidth.toNat / 16) (src.mHeight.toNat / 16)) {x y : Nat} {v : BitVec 16}
    (h : PixelIs dst (pictureAccesses mBits dst (src.mWidth.toNat / 16) (src.mHeight.toNat / 16))
      x y v) :
    Covered dst (src.mWidth.toNat / 16) (src.mHeight.toNat / 16) x y ∧
      v = sourcePixel mBits src x y := by
  obtain ⟨hx, hy, hlast⟩ := h
  have hwritten : pixelsWritten (pictureAccesses mBits dst (src.mWidth.toNat / 16)
      (src.mHeight.toNat / 16)) (2 * (y * dst.mWidth.toNat + x)) ≠ [] := by
    intro hnil
    rw [hnil] at hlast
    cases hlast
  obtain ⟨x', y', hc, ha⟩ := covered_of_written hs hwritten
  obtain ⟨rfl, rfl⟩ := row_col_unique hx (Nat.lt_of_lt_of_le hc.1 (Nat.min_le_left ..))
    (show y * dst.mWidth.toNat + x = y' * dst.mWidth.toNat + x' by omega)
  obtain ⟨_, _, hown⟩ := pixel_of_covered mBits hs hc
  exact ⟨hc, Option.some.inj (hlast.symm.trans hown)⟩

/-- A picture that is black but for the luma sample at its very beginning. -/
def brightFirst : Mem := fun a => if a = 0 then 255 else 0

/-- The sample at the beginning is that of the pixel at the origin. -/
theorem lumaAt_eq_zero {mx x y : Nat} (hmx : 0 < mx) (h : lumaAt mx x y = 0) : x = 0 ∧ y = 0 := by
  have hmacroblock : y / 16 * mx + x / 16 = 0 := by
    unfold lumaAt macroblockOf at h
    omega
  have hrow : y / 16 * mx = 0 := by omega
  have hy : y / 16 = 0 := by
    rcases Nat.mul_eq_zero.mp hrow with hy | hy
    · exact hy
    · omega
  unfold lumaAt macroblockOf at h
  omega

/-- Only the pixel at the origin shows it. -/
theorem origin_of_bright {src : BitmapParams} {x y : Nat}
    (hmx : 0 < src.mWidth.toNat / 16) (hmy : 0 < src.mHeight.toNat / 16)
    (h : sourcePixel brightFirst src 0 0 = sourcePixel brightFirst src x y) : x = 0 ∧ y = 0 := by
  have hchroma : ∀ x y, brightFirst
      (chromaAt (src.mWidth.toNat / 16) (src.mHeight.toNat / 16) x y) = 0 ∧ brightFirst
      (chromaAt (src.mWidth.toNat / 16) (src.mHeight.toNat / 16) x y + 1) = 0 := by
    intro x y
    have hpos : 0 < src.mWidth.toNat / 16 * (src.mHeight.toNat / 16) := Nat.mul_pos hmx hmy
    unfold brightFirst
    rw [if_neg (by unfold chromaAt; omega), if_neg (by omega)]
    exact ⟨rfl, rfl⟩
  by_contra hne
  have hdark : brightFirst (lumaAt (src.mWidth.toNat / 16) x y) = 0 :=
    if_neg fun hzero => hne (lumaAt_eq_zero hmx hzero)
  have hbright : brightFirst (lumaAt (src.mWidth.toNat / 16) 0 0) = 255 := by
    simp [brightFirst, lumaAt, macroblockOf]
  unfold sourcePixel at h
  rw [hdark, hbright, (hchroma 0 0).1, (hchroma 0 0).2, (hchroma x y).1, (hchroma x y).2] at h
  exact absurd h (by decide)

/-! ## The test and the rectangle -/

theorem cropConverted_of_fits {mBits : Mem} {src dst : BitmapParams}
    (hs : Sizes dst (src.mWidth.toNat / 16) (src.mHeight.toNat / 16)) (hfits : Fits src dst) :
    CropConverted mBits src dst
      (pictureAccesses mBits dst (src.mWidth.toNat / 16) (src.mHeight.toNat / 16)) := by
  intro x y hx hy
  rcases hfits with hempty | hempty | ⟨hleft, htop, hw, hh⟩
  · omega
  · omega
  · rw [hleft, htop, Nat.zero_add, Nat.zero_add]
    exact pixel_of_covered mBits hs ⟨by omega, by omega⟩

theorem fits_of_cropConverted {src dst : BitmapParams}
    (hs : Sizes dst (src.mWidth.toNat / 16) (src.mHeight.toNat / 16))
    (h : CropConverted brightFirst src dst
      (pictureAccesses brightFirst dst (src.mWidth.toNat / 16) (src.mHeight.toNat / 16))) :
    Fits src dst := by
  by_cases hwide : dst.cropWidth.toNat = 0
  · exact Or.inl hwide
  by_cases hhigh : dst.cropHeight.toNat = 0
  · exact Or.inr (Or.inl hhigh)
  refine Or.inr (Or.inr ?_)
  -- the corner of the rectangle is the origin
  obtain ⟨hcorner, hvalue⟩ := covered_of_pixel hs (h 0 0 (by omega) (by omega))
  obtain ⟨hx, hy⟩ := hcorner
  obtain ⟨hleft, htop⟩ := origin_of_bright (by omega) (by omega) hvalue
  -- its last column and its last row have been written
  obtain ⟨⟨hright, _⟩, _⟩ :=
    covered_of_pixel hs (h (dst.cropWidth.toNat - 1) 0 (by omega) (by omega))
  obtain ⟨⟨_, hbottom⟩, _⟩ :=
    covered_of_pixel hs (h 0 (dst.cropHeight.toNat - 1) (by omega) (by omega))
  exact ⟨by omega, by omega, by omega, by omega⟩

theorem refused_not_ok (mBits : Mem) {src dst : BitmapParams} (hrej : accepts src dst = false) :
    (convertSTEYUV420PackedSemiPlanarMB mBits src dst).1 ≠ .OK := by
  unfold convertSTEYUV420PackedSemiPlanarMB
  rw [if_pos hrej]
  exact fun h => by cases h

/-- **When `OK` is the truth.**  For all contents of the picture the crop rectangle is converted
    wherever the function says so, exactly if the rectangles that the test lets through fit. -/
theorem ok_converts_iff (src dst : BitmapParams)
    (hsrc : src.mWidth.toNat * src.mHeight.toNat * 3 / 2 < 2 ^ 31)
    (hdst : dst.mWidth.toNat * dst.mHeight.toNat * 2 < 2 ^ 31) :
    (∀ mBits : Mem, (convertSTEYUV420PackedSemiPlanarMB mBits src dst).1 = .OK →
        CropConverted mBits src dst (convertSTEYUV420PackedSemiPlanarMB mBits src dst).2) ↔
      (accepts src dst = true → Fits src dst) := by
  constructor
  · intro h hacc
    have hs := sizes_of_accepts hacc hsrc hdst
    have hbright := h brightFirst
    rw [convert_eq brightFirst hacc hs] at hbright
    exact fits_of_cropConverted hs (hbright rfl)
  · intro hfits mBits hok
    by_cases hacc : accepts src dst = true
    · have hs := sizes_of_accepts hacc hsrc hdst
      rw [convert_eq mBits hacc hs]
      exact cropConverted_of_fits hs (hfits hacc)
    · exact absurd hok (refused_not_ok mBits (Bool.eq_false_of_not_eq_true hacc))

/-- A 22x27 part of a 48x32 picture is converted whole. -/
theorem ok_converts_part :
    CropConverted brightFirst ⟨48, 32, 0, 0, 21, 26⟩ ⟨22, 27, 0, 0, 21, 26⟩
      (convertSTEYUV420PackedSemiPlanarMB brightFirst ⟨48, 32, 0, 0, 21, 26⟩
        ⟨22, 27, 0, 0, 21, 26⟩).2 :=
  (ok_converts_iff ⟨48, 32, 0, 0, 21, 26⟩ ⟨22, 27, 0, 0, 21, 26⟩ (by decide) (by decide)).mpr
    (by decide) brightFirst rfl

/-- A picture of 1920x1080: 1080 rows are 67 blocks and a half, and nothing is written to the last
    eight. -/
theorem last_rows_unwritten : ¬ ∀ (mBits : Mem) (src dst : BitmapParams),
    src.mWidth.toNat * src.mHeight.toNat * 3 / 2 < 2 ^ 31 →
    dst.mWidth.toNat * dst.mHeight.toNat * 2 < 2 ^ 31 →
    (convertSTEYUV420PackedSemiPlanarMB mBits src dst).1 = .OK →
      CropConverted mBits src dst (convertSTEYUV420PackedSemiPlanarMB mBits src dst).2 := by
  intro hall
  let picture : BitmapParams := ⟨1920, 1080, 0, 0, 1919, 1079⟩
  have hacc : accepts picture picture = true := by decide
  have hs : Sizes picture (picture.mWidth.toNat / 16) (picture.mHeight.toNat / 16) :=
    sizes_of_accepts hacc (by decide) (by decide)
  have hconv := hall brightFirst picture picture (by decide) (by decide)
  rw [convert_eq brightFirst hacc hs] at hconv
  exact absurd (fits_of_cropConverted hs (hconv rfl)) (by decide)

end Codina.Media
