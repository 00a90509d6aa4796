/-
  `convertSTEYUV420PackedSemiPlanarMB`: the pixels.

  Every pixel of the destination that a macroblock covers is written exactly once, with the RGB565
  value of its luma sample and of the two chroma samples it shares with its neighbours, and nothing
  else is written (`convert_pixels`).

  The value of a pixel is stated with whole numbers: a fixed-point matrix with eight fractional bits,
  rounded down, clamped to a byte and cut to five, six and five bits.  The code's branches, shifts and
  word arithmetic come to that (`rgbWord_low`, `rgbWord_high`).  That a pixel is written once follows
  from the nest of loops: in each of them exactly one round reaches the pixel, so the nest is taken
  apart with `flatMap_range_single`.
-/
import Codina.Media.MacroblockWalk

namespace Codina.Media

open Codina.Bytes Codina.Loops

/-! ## The value of a pixel -/

/-- A fixed-point value with eight fractional bits, rounded down and clamped to a byte. -/
def clamp8 (w : Int) : Nat := (max 0 (min 255 (w / 256))).toNat

/-- Packed RGB565: five bits of red, six of green, five of blue. -/
def pack565 (r g b : Nat) : BitVec 16 := BitVec.ofNat 16 (r / 8 * 2 ^ 11 + g / 4 * 2 ^ 5 + b / 8)

/-- The RGB565 pixel for one luma and two chroma samples. -/
def rgb565 (y cb cr : Byte) : BitVec 16 :=
  pack565 (clamp8 (298 * y.toNat + 408 * cr.toNat - 57059))
    (clamp8 (298 * y.toNat - 100 * cb.toNat - 208 * cr.toNat + 34713))
    (clamp8 (298 * y.toNat + 516 * cb.toNat - 70887))

theorem clamp_toNat (w : Int) : (clamp w).toNat = clamp8 w := by
  unfold clamp clamp8
  by_cases hneg : w < 0
  · rw [if_pos hneg]
    show 0 = _
    omega
  rw [if_neg hneg]
  by_cases hbig : 65536 ≤ w
  · rw [if_pos hbig]
    show 255 = _
    omega
  · rw [if_neg hbig, BitVec.toNat_ofInt, Int.shiftRight_eq_div_pow]
    omega

theorem clamp8_lt (w : Int) : clamp8 w < 256 := by
  unfold clamp8
  omega

/-- What a pixel contributes to its half of `rgbWord`. -/
def Rgb.value (p : Rgb) : Nat := p.r.toNat * 2 ^ 11 + p.g.toNat * 2 ^ 5 + p.b.toNat

/-- The components have been shifted down to five, six and five bits. -/
def Rgb.Shifted (p : Rgb) : Prop := p.r.toNat < 32 ∧ p.g.toNat < 64 ∧ p.b.toNat < 32

theorem toRgb_shifted (y cb cr : Byte) : (toRgb y cb cr).Shifted := by
  refine ⟨?_, ?_, ?_⟩ <;>
  · simp only [toRgb, BitVec.toNat_ushiftRight, Nat.shiftRight_eq_div_pow, clamp_toNat]
    exact Nat.div_lt_of_lt_mul (clamp8_lt _)

theorem toRgb_value (y cb cr : Byte) :
    BitVec.ofNat 16 (toRgb y cb cr).value = rgb565 y cb cr := by
  simp only [Rgb.value, toRgb, rgb565, pack565, BitVec.toNat_ushiftRight,
    Nat.shiftRight_eq_div_pow, clamp_toNat]

theorem rgbWord_toNat {p q : Rgb} (hp : p.Shifted) (hq : q.Shifted) :
    (rgbWord p q).toNat = q.value * 2 ^ 16 + p.value := by
  obtain ⟨hpr, hpg, hpb⟩ := hp
  obtain ⟨hqr, hqg, hqb⟩ := hq
  simp only [rgbWord, Rgb.value, BitVec.toNat_add, BitVec.toNat_shiftLeft, BitVec.toNat_setWidth,
    Nat.shiftLeft_eq]
  omega

/-- The low half of the word is the first of the two pixels. -/
theorem rgbWord_low {p q : Rgb} (hp : p.Shifted) (hq : q.Shifted) :
    (rgbWord p q).extractLsb' 0 16 = BitVec.ofNat 16 p.value := by
  apply BitVec.eq_of_toNat_eq
  rw [BitVec.extractLsb'_toNat, rgbWord_toNat hp hq, BitVec.toNat_ofNat, Nat.shiftRight_zero]
  omega

theorem rgbWord_high {p q : Rgb} (hp : p.Shifted) (hq : q.Shifted) :
    (rgbWord p q).extractLsb' 16 16 = BitVec.ofNat 16 q.value := by
  have hlt : p.value < 2 ^ 16 := by
    obtain ⟨hpr, hpg, hpb⟩ := hp
    unfold Rgb.value
    omega
  apply BitVec.eq_of_toNat_eq
  rw [BitVec.extractLsb'_toNat, rgbWord_toNat hp hq, BitVec.toNat_ofNat,
    Nat.shiftRight_eq_div_pow]
  omega

/-! ## What is written to a pixel -/

/-- The values an access writes to the half word at byte offset `a`: each word holds two. -/
def Access.writtenAt (a : Nat) : Access → List (BitVec 16)
  | .read _ => []
  | .write p v => (if p.toNat = a then [v.extractLsb' 0 16] else []) ++
      if p.toNat + 2 = a then [v.extractLsb' 16 16] else []

/-- All values written to the half word at byte offset `a`, in order. -/
def pixelsWritten (t : Trace) (a : Nat) : List (BitVec 16) := t.flatMap (Access.writtenAt a)

/-- The word that a row of a block writes for its pixels `2 * half` and `2 * half + 1`. -/
def wordValue (mBits : Mem) (L C row half : Nat) : BitVec 32 :=
  rgbWord (pixel (load32 mBits (L + 8 * row)) (load32 mBits (C + 8 * (row / 2))) (2 * half))
    (pixel (load32 mBits (L + 8 * row)) (load32 mBits (C + 8 * (row / 2))) (2 * half + 1))

theorem pixel_value (mBits : Mem) (a c : Nat) {i : Nat} (hi : i < 4) :
    BitVec.ofNat 16 (pixel (load32 mBits a) (load32 mBits c) i).value =
      rgb565 (mBits (a + i)) (mBits (c + 2 * (i / 2))) (mBits (c + 2 * (i / 2) + 1)) := by
  rw [pixel, toRgb_value, byteOf_load mBits 4 a hi, byteOf_load mBits 4 c (by omega),
    byteOf_load mBits 4 c (by omega), Nat.add_assoc]

theorem pixel_shifted (lumaWord chromaWord1 : BitVec 32) (i : Nat) :
    (pixel lumaWord chromaWord1 i).Shifted :=
  toRgb_shifted ..

theorem wordValue_low (mBits : Mem) (L C row : Nat) {half : Nat} (h : half < 2) :
    (wordValue mBits L C row half).extractLsb' 0 16 =
      rgb565 (mBits (L + 8 * row + 2 * half)) (mBits (C + 8 * (row / 2) + 2 * half))
        (mBits (C + 8 * (row / 2) + 2 * half + 1)) := by
  rw [wordValue, rgbWord_low (pixel_shifted ..) (pixel_shifted ..), pixel_value _ _ _ (by omega),
    show 2 * half / 2 = half by omega]

theorem wordValue_high (mBits : Mem) (L C row : Nat) {half : Nat} (h : half < 2) :
    (wordValue mBits L C row half).extractLsb' 16 16 =
      rgb565 (mBits (L + 8 * row + 2 * half + 1)) (mBits (C + 8 * (row / 2) + 2 * half))
        (mBits (C + 8 * (row / 2) + 2 * half + 1)) := by
  rw [wordValue, rgbWord_high (pixel_shifted ..) (pixel_shifted ..), pixel_value _ _ _ (by omega),
    show (2 * half + 1) / 2 = half by omega, ← Nat.add_assoc (L + 8 * row)]

/-! ## Each pixel is reached by one round of every loop -/

theorem rowAccesses_eq (mBits : Mem) (dst : BitmapParams) (x y L C row : Nat) :
    rowAccesses mBits dst x y L C row =
      .read (BitVec.ofNat 32 (L + 8 * row)) ::
        ((if row % 2 = 0 then [.read (BitVec.ofNat 32 (C + 8 * (row / 2)))] else []) ++
          (List.range 2).flatMap fun half =>
            wordAccess dst (x + 2 * half) (y + row) (wordValue mBits L C row half)) :=
  rfl

/-- Reading writes nothing. -/
theorem writtenAt_reads (p : Ptr) (row a : Nat) :
    (if row % 2 = 0 then [Access.read p] else []).flatMap (Access.writtenAt a) = [] := by
  split
  · rfl
  · rfl

theorem pixelsWritten_row (mBits : Mem) (dst : BitmapParams) (x y L C row a : Nat) :
    (rowAccesses mBits dst x y L C row).flatMap (Access.writtenAt a) =
      (List.range 2).flatMap fun half =>
        pixelsWritten (wordAccess dst (x + 2 * half) (y + row) (wordValue mBits L C row half)) a := by
  unfold pixelsWritten
  rw [rowAccesses_eq, List.flatMap_cons, List.flatMap_append, writtenAt_reads, List.flatMap_assoc,
    Access.writtenAt, List.nil_append, List.nil_append]

/-- The word behind the writes of a pixel, spelled out over the whole nest of loops. -/
theorem pixelsWritten_picture (mBits : Mem) (dst : BitmapParams) (mx my a : Nat) :
    pixelsWritten (pictureAccesses mBits dst mx my) a =
      (List.range my).flatMap fun ly => (List.range mx).flatMap fun lx =>
        (List.range 2).flatMap fun col => (List.range 2).flatMap fun nb =>
          (List.range (min 16 (dst.mHeight.toNat - 16 * ly))).flatMap fun row =>
            (List.range 2).flatMap fun half =>
              pixelsWritten (wordAccess dst (16 * lx + 8 * col + 4 * nb + 2 * half) (16 * ly + row)
                (wordValue mBits (256 * (ly * mx + lx) + 128 * col + 4 * nb)
                  (256 * (mx * my) + 128 * (ly * mx + lx) + 64 * col + 4 * nb) row half)) a := by
  simp only [pixelsWritten, pictureAccesses, macroblockAccesses, colAccesses, blockAccesses,
    List.flatMap_assoc, pixelsWritten_row]

/-- A column and a row are determined by the offset they give. -/
theorem row_col_unique {W x y x' y' : Nat} (hx : x < W) (hx' : x' < W)
    (h : y * W + x = y' * W + x') : y = y' ∧ x = x' := by
  have hW : 0 < W := by omega
  have hdiv : ∀ y x, x < W → (y * W + x) / W = y := by
    intro y x hlt
    rw [Nat.add_comm, Nat.add_mul_div_right x y hW, Nat.div_eq_of_lt hlt, Nat.zero_add]
  have hy : y = y' := by rw [← hdiv y x hx, h, hdiv y' x' hx']
  subst hy
  exact ⟨rfl, by omega⟩

/-- The word that holds columns `x` and `x + 1` of row `y` writes to these two pixels. -/
theorem pixelsWritten_word {dst : BitmapParams} {mx my : Nat} (hs : Sizes dst mx my) {x y a : Nat}
    (v : BitVec 32) (hx : x < dst.mWidth.toNat) (hy : y < dst.mHeight.toNat) :
    pixelsWritten (wordAccess dst x y v) a =
      (if 2 * (y * dst.mWidth.toNat + x) = a then [v.extractLsb' 0 16] else []) ++
        if 2 * (y * dst.mWidth.toNat + x) + 2 = a then [v.extractLsb' 16 16] else [] := by
  have hrow := row_offset_le (W := dst.mWidth.toNat) hy
  have hdest := hs.dest
  have hoff : (offsetOf dst x y).toNat = 2 * (y * dst.mWidth.toNat + x) := by
    rw [offsetOf, BitVec.toNat_ofNat, Nat.mod_eq_of_lt (by omega)]
  rw [wordAccess, if_pos hx]
  simp only [pixelsWritten, List.flatMap_cons, List.flatMap_nil, List.append_nil, Access.writtenAt,
    hoff]

/-- A word writes to a pixel only when it is the word that holds it. -/
theorem word_of_written {dst : BitmapParams} {mx my : Nat} (hs : Sizes dst mx my)
    {x y x' y' : Nat} {v : BitVec 32} (heven : x' % 2 = 0) (hx : x < dst.mWidth.toNat)
    (hy' : y' < dst.mHeight.toNat)
    (h : pixelsWritten (wordAccess dst x' y' v) (2 * (y * dst.mWidth.toNat + x)) ≠ []) :
    y' = y ∧ x' = 2 * (x / 2) := by
  by_cases hx' : x' < dst.mWidth.toNat
  · have hpar := hs.even
    rw [pixelsWritten_word hs v hx' hy'] at h
    by_cases hlow : 2 * (y' * dst.mWidth.toNat + x') = 2 * (y * dst.mWidth.toNat + x)
    · obtain ⟨rfl, rfl⟩ := row_col_unique hx' hx
        (show y' * dst.mWidth.toNat + x' = y * dst.mWidth.toNat + x by omega)
      exact ⟨rfl, by omega⟩
    · rw [if_neg hlow] at h
      by_cases hhigh : 2 * (y' * dst.mWidth.toNat + x') + 2 = 2 * (y * dst.mWidth.toNat + x)
      · obtain ⟨rfl, hxx⟩ := row_col_unique (x := x' + 1) (by omega) hx
          (show y' * dst.mWidth.toNat + (x' + 1) = y * dst.mWidth.toNat + x by omega)
        exact ⟨rfl, by omega⟩
      · rw [if_neg hhigh] at h
        exact absurd rfl h
  · rw [wordAccess, if_neg hx'] at h
    exact absurd rfl h

/-- **The writes of a pixel are those of its own word**: of every loop, only the round that the
    pixel's coordinates name reaches it. -/
theorem pixelsWritten_own_word {mBits : Mem} {dst : BitmapParams} {mx my : Nat}
    (hs : Sizes dst mx my) {x y : Nat} (hx : x < dst.mWidth.toNat) (hxm : x < 16 * mx)
    (hy : y < dst.mHeight.toNat) (hym : y < 16 * my) :
    pixelsWritten (pictureAccesses mBits dst mx my) (2 * (y * dst.mWidth.toNat + x)) =
      pixelsWritten (wordAccess dst (2 * (x / 2)) y
        (wordValue mBits
          (256 * (y / 16 * mx + x / 16) + 128 * (x % 16 / 8) + 4 * (x % 8 / 4))
          (256 * (mx * my) + 128 * (y / 16 * mx + x / 16) + 64 * (x % 16 / 8) + 4 * (x % 8 / 4))
          (y % 16) (x % 4 / 2)))
        (2 * (y * dst.mWidth.toNat + x)) := by
  rw [pixelsWritten_picture]
  -- a word at other coordinates does not write to the pixel
  have hother : ∀ ly lx col nb row half v, 16 * ly + row < dst.mHeight.toNat →
      (16 * ly + row ≠ y ∨ 16 * lx + 8 * col + 4 * nb + 2 * half ≠ 2 * (x / 2)) →
      pixelsWritten (wordAccess dst (16 * lx + 8 * col + 4 * nb + 2 * half) (16 * ly + row) v)
        (2 * (y * dst.mWidth.toNat + x)) = [] := by
    intro ly lx col nb row half v hin hne
    by_contra hw
    have := word_of_written hs (by omega) hx hin hw
    omega
  rw [flatMap_range_single (k := y / 16) (by omega) fun ly _ hly =>
    flatMap_range_nil fun lx _ => flatMap_range_nil fun col _ => flatMap_range_nil fun nb _ =>
      flatMap_range_nil fun row _ => flatMap_range_nil fun half _ =>
        hother ly lx col nb row half _ (by omega) (by omega)]
  rw [flatMap_range_single (k := x / 16) (by omega) fun lx _ hlx =>
    flatMap_range_nil fun col _ => flatMap_range_nil fun nb _ =>
      flatMap_range_nil fun row _ => flatMap_range_nil fun half _ =>
        hother _ lx col nb row half _ (by omega) (by omega)]
  rw [flatMap_range_single (k := x % 16 / 8) (by omega) fun col _ hcol =>
    flatMap_range_nil fun nb _ => flatMap_range_nil fun row _ => flatMap_range_nil fun half _ =>
      hother _ _ col nb row half _ (by omega) (by omega)]
  rw [flatMap_range_single (k := x % 8 / 4) (by omega) fun nb _ hnb =>
    flatMap_range_nil fun row _ => flatMap_range_nil fun half _ =>
      hother _ _ _ nb row half _ (by omega) (by omega)]
  rw [flatMap_range_single (k := y % 16) (by omega) fun row _ hrow =>
    flatMap_range_nil fun half _ => hother _ _ _ _ row half _ (by omega) (by omega)]
  rw [flatMap_range_single (k := x % 4 / 2) (by omega) fun half _ hhalf =>
    hother _ _ _ _ _ half _ (by omega) (by omega)]
  rw [show 16 * (y / 16) + y % 16 = y by omega,
    show 16 * (x / 16) + 8 * (x % 16 / 8) + 4 * (x % 8 / 4) + 2 * (x % 4 / 2) = 2 * (x / 2) by omega]

/-! ## The conversion -/

/-- The macroblock a pixel lies in. -/
def macroblockOf (mx x y : Nat) : Nat := y / 16 * mx + x / 16

/-- The byte of the source with the luma sample of a pixel. -/
def lumaAt (mx x y : Nat) : Nat :=
  256 * macroblockOf mx x y + 128 * (x % 16 / 8) + 8 * (y % 16) + x % 8

/-- The byte of the source with its Cb sample; the Cr sample is the byte behind it. -/
def chromaAt (mx my x y : Nat) : Nat :=
  256 * (mx * my) + 128 * macroblockOf mx x y + 64 * (x % 16 / 8) + 8 * (y % 16 / 2) +
    2 * (x % 8 / 2)

/-- The pixels that lie both in the destination and in a macroblock. -/
def Covered (dst : BitmapParams) (mx my x y : Nat) : Prop :=
  x < min dst.mWidth.toNat (16 * mx) ∧ y < min dst.mHeight.toNat (16 * my)

/-- Every covered pixel is written once, with its value, and no half word that is not a covered
    pixel is written at all. -/
def ConvertsPixels (mBits : Mem) (dst : BitmapParams) (mx my : Nat) (t : Trace) : Prop :=
  (∀ x y, Covered dst mx my x y →
    pixelsWritten t (2 * (y * dst.mWidth.toNat + x)) =
      [rgb565 (mBits (lumaAt mx x y)) (mBits (chromaAt mx my x y))
        (mBits (chromaAt mx my x y + 1))]) ∧
  ∀ a, pixelsWritten t a ≠ [] →
    ∃ x y, Covered dst mx my x y ∧ a = 2 * (y * dst.mWidth.toNat + x)

theorem written_once {mBits : Mem} {dst : BitmapParams} {mx my : Nat} (hs : Sizes dst mx my)
    {x y : Nat} (hc : Covered dst mx my x y) :
    pixelsWritten (pictureAccesses mBits dst mx my) (2 * (y * dst.mWidth.toNat + x)) =
      [rgb565 (mBits (lumaAt mx x y)) (mBits (chromaAt mx my x y))
        (mBits (chromaAt mx my x y + 1))] := by
  obtain ⟨hx, hy⟩ := hc
  have hhalf : x % 4 / 2 < 2 := by omega
  have hluma : lumaAt mx x y =
      256 * (y / 16 * mx + x / 16) + 128 * (x % 16 / 8) + 4 * (x % 8 / 4) + 8 * (y % 16) +
        2 * (x % 4 / 2) + x % 2 := by
    unfold lumaAt macroblockOf
    omega
  have hchroma : chromaAt mx my x y =
      256 * (mx * my) + 128 * (y / 16 * mx + x / 16) + 64 * (x % 16 / 8) + 4 * (x % 8 / 4) +
        8 * (y % 16 / 2) + 2 * (x % 4 / 2) := by
    unfold chromaAt macroblockOf
    omega
  rw [pixelsWritten_own_word hs (by omega) (by omega) (by omega) (by omega),
    pixelsWritten_word hs _ (by omega) (by omega), hluma, hchroma]
  by_cases hodd : x % 2 = 0
  · rw [if_pos (by omega), if_neg (by omega), wordValue_low _ _ _ _ hhalf, hodd, List.append_nil]
    rfl
  · rw [if_neg (by omega), if_pos (by omega), wordValue_high _ _ _ _ hhalf,
      show x % 2 = 1 by omega, List.nil_append]

/-- What is written is a covered pixel. -/
theorem covered_of_written {mBits : Mem} {dst : BitmapParams} {mx my : Nat} (hs : Sizes dst mx my)
    {a : Nat} (h : pixelsWritten (pictureAccesses mBits dst mx my) a ≠ []) :
    ∃ x y, Covered dst mx my x y ∧ a = 2 * (y * dst.mWidth.toNat + x) := by
  have heven := hs.even
  rw [pixelsWritten_picture] at h
  simp only [ne_eq, List.flatMap_eq_nil_iff, List.mem_range, not_forall] at h
  obtain ⟨ly, hly, lx, hlx, col, hcol, nb, hnb, row, hrow, half, hhalf, hw⟩ := h
  by_cases hx : 16 * lx + 8 * col + 4 * nb + 2 * half < dst.mWidth.toNat
  · rw [pixelsWritten_word hs _ hx (by omega)] at hw
    by_cases hlow : 2 * ((16 * ly + row) * dst.mWidth.toNat +
        (16 * lx + 8 * col + 4 * nb + 2 * half)) = a
    · exact ⟨_, _, ⟨by omega, by omega⟩, hlow.symm⟩
    · rw [if_neg hlow] at hw
      by_cases hhigh : 2 * ((16 * ly + row) * dst.mWidth.toNat +
          (16 * lx + 8 * col + 4 * nb + 2 * half)) + 2 = a
      · exact ⟨16 * lx + 8 * col + 4 * nb + 2 * half + 1, 16 * ly + row, ⟨by omega, by omega⟩,
          by omega⟩
      · rw [if_neg hhigh] at hw
        exact absurd rfl hw
  · rw [wordAccess, if_neg hx] at hw
    exact absurd rfl hw

/-- The test the function begins with makes the width of the destination even. -/
theorem even_of_accepts {src dst : BitmapParams} (h : accepts src dst = true) :
    dst.mWidth.toNat % 2 = 0 := by
  simp only [accepts, Bool.and_eq_true, decide_eq_true_eq] at h
  have hand := congrArg BitVec.toNat h.1.1.1.1
  rw [BitVec.toNat_and] at hand
  exact (Nat.and_one_is_mod _).symm.trans hand

/-- The macroblocks take up no more than a buffer of `mWidth * mHeight * 3 / 2` bytes. -/
theorem macroblocks_le (src : BitmapParams) :
    384 * (src.mWidth.toNat / 16 * (src.mHeight.toNat / 16)) ≤
      src.mWidth.toNat * src.mHeight.toNat * 3 / 2 := by
  have hw : src.mWidth.toNat / 16 * 16 ≤ src.mWidth.toNat := Nat.div_mul_le_self ..
  have hh : src.mHeight.toNat / 16 * 16 ≤ src.mHeight.toNat := Nat.div_mul_le_self ..
  have hprod := Nat.mul_le_mul hw hh
  have hassoc : src.mWidth.toNat / 16 * 16 * (src.mHeight.toNat / 16 * 16) =
      src.mWidth.toNat / 16 * (src.mHeight.toNat / 16) * 256 := by ring
  omega

/-- Buffers that exist hold the macroblocks and the pixels. -/
theorem sizes_of_accepts {src dst : BitmapParams} (h : accepts src dst = true)
    (hsrc : src.mWidth.toNat * src.mHeight.toNat * 3 / 2 < 2 ^ 31)
    (hdst : dst.mWidth.toNat * dst.mHeight.toNat * 2 < 2 ^ 31) :
    Sizes dst (src.mWidth.toNat / 16) (src.mHeight.toNat / 16) where
  even := even_of_accepts h
  dest := hdst
  source := by
    have hle := macroblocks_le src
    omega

/-- The pointers start at the first luma and the first chroma word. -/
theorem pictureInv_start (src : BitmapParams) :
    PictureInv 0 (256 * (src.mWidth.toNat / 16 * (src.mHeight.toNat / 16))) []
      { pLuma := 0, pChroma := 4 * (src.mWidth / 16 * (src.mHeight / 16) * 64), trace := [] } where
  pLuma := rfl
  pChroma := by
    apply BitVec.eq_of_toNat_eq
    simp only [BitVec.toNat_mul, BitVec.toNat_udiv, BitVec.toNat_ofNat]
    show 4 * (src.mWidth.toNat / 16 * (src.mHeight.toNat / 16) % 2 ^ 32 * 64 % 2 ^ 32) % 2 ^ 32 = _
    omega
  trace := rfl

theorem convert_eq (mBits : Mem) {src dst : BitmapParams} (hacc : accepts src dst = true)
    (hs : Sizes dst (src.mWidth.toNat / 16) (src.mHeight.toNat / 16)) :
    convertSTEYUV420PackedSemiPlanarMB mBits src dst =
      (.OK, pictureAccesses mBits dst (src.mWidth.toNat / 16) (src.mHeight.toNat / 16)) := by
  have hrej : ¬ accepts src dst = false := by simp [hacc]
  have hpic := picture_spec mBits hs (pictureInv_start src)
  unfold convertSTEYUV420PackedSemiPlanarMB
  rw [if_neg hrej, ← hpic]
  rfl

/-- **The conversion computes the right pixels.**  The two bounds say that the buffers exist: no
    object is so large that two pointers into it cannot be subtracted. -/
theorem convert_pixels (mBits : Mem) (src dst : BitmapParams) (hacc : accepts src dst = true)
    (hsrc : src.mWidth.toNat * src.mHeight.toNat * 3 / 2 < 2 ^ 31)
    (hdst : dst.mWidth.toNat * dst.mHeight.toNat * 2 < 2 ^ 31) :
    (convertSTEYUV420PackedSemiPlanarMB mBits src dst).1 = .OK ∧
      ConvertsPixels mBits dst (src.mWidth.toNat / 16) (src.mHeight.toNat / 16)
        (convertSTEYUV420PackedSemiPlanarMB mBits src dst).2 := by
  have hs := sizes_of_accepts hacc hsrc hdst
  rw [convert_eq mBits hacc hs]
  exact ⟨rfl, fun x y => written_once hs, fun a => covered_of_written hs⟩

/-- A 22x27 part of a 48x32 picture: the right edge cuts a block and the bottom edge a macroblock. -/
theorem convert_pixels_cropped :
    (convertSTEYUV420PackedSemiPlanarMB (fun _ => 128) ⟨48, 32, 0, 0, 21, 26⟩
        ⟨22, 27, 0, 0, 21, 26⟩).1 = .OK ∧
      ConvertsPixels (fun _ => 128) ⟨22, 27, 0, 0, 21, 26⟩ 3 2
        (convertSTEYUV420PackedSemiPlanarMB (fun _ => 128) ⟨48, 32, 0, 0, 21, 26⟩
          ⟨22, 27, 0, 0, 21, 26⟩).2 :=
  convert_pixels (fun _ => 128) ⟨48, 32, 0, 0, 21, 26⟩ ⟨22, 27, 0, 0, 21, 26⟩ (by decide)
    (by decide) (by decide)

end Codina.Media
