/-
  `convertSTEYUV420PackedSemiPlanarMB`: the walk over the macroblocks.

  The loops move four pointers with different strides and leave rows and words out by comparing
  wrapped values.  This file computes what they do: with every pointer written as its offset, one
  lemma for each loop body says where the pointers are before a round and which words the round
  accesses, and `picture_spec` puts the whole run together as `pictureAccesses`, a nest of lists in
  which only plain numbers are left.

  The buffers are assumed to exist (`Sizes`): then no offset wraps inside them, and the test against
  the right edge is right even for words so far behind the end of the destination that the pointer
  difference turns negative (`rowPos_le_iff`).
-/
import Codina.Media.ColorConverter
import Mathlib.Tactic.Common
import Mathlib.Tactic.Ring

namespace Codina.Media

open Codina.Bytes Codina.Loops

/-! ## The walk over the picture -/

/-- The sizes of two buffers that exist: the source holds `mx * my` macroblocks and the destination
    its pixels, and neither is too large for the difference of two pointers into it. -/
structure Sizes (dst : BitmapParams) (mx my : Nat) : Prop where
  even : dst.mWidth.toNat % 2 = 0
  dest : dst.mWidth.toNat * dst.mHeight.toNat * 2 < 2 ^ 31
  source : mx * my * 384 < 2 ^ 31

/-- The product that every offset in a row contains. -/
theorem row_offset_le {y W H : Nat} (h : y < H) : y * W + W ≤ W * H := by
  calc y * W + W = W * (y + 1) := by ring
    _ ≤ W * H := Nat.mul_le_mul_left W h

/-- The pixel in column `x` of row `y` of the destination. -/
def offsetOf (dst : BitmapParams) (x y : Nat) : Ptr :=
  BitVec.ofNat 32 (2 * (y * dst.mWidth.toNat + x))

theorem offsetOf_add (dst : BitmapParams) (x y n : Nat) :
    offsetOf dst (x + n) y = offsetOf dst x y + BitVec.ofNat 32 (2 * n) := by
  rw [offsetOf, offsetOf, ← BitVec.ofNat_add]
  exact congrArg (BitVec.ofNat 32) (by ring)

theorem offsetOf_next_row (dst : BitmapParams) (x y : Nat) :
    offsetOf dst x (y + 1) = offsetOf dst x y + BitVec.ofNat 32 (2 * dst.mWidth.toNat) := by
  rw [offsetOf, offsetOf, ← BitVec.ofNat_add]
  exact congrArg (BitVec.ofNat 32) (by ring)

/-- **The test against the right edge.**  Even where the pointer has run so far past the destination
    that the difference turns negative, the test comes out as for the column itself. -/
theorem rowPos_le_iff {dst : BitmapParams} {mx my : Nat} (hs : Sizes dst mx my) {s : RowState}
    {x y : Nat} (hy : y < dst.mHeight.toNat) (hx : x < 2 ^ 27) (heven : x % 2 = 0)
    (hbuf : s.locBuf = offsetOf dst x y)
    (horigo : s.dstRowOrigo = BitVec.ofNat 32 (y * dst.mWidth.toNat)) :
    dst.mWidth ≤ s.rowPos ↔ dst.mWidth.toNat ≤ x := by
  have hrow := row_offset_le (W := dst.mWidth.toNat) hy
  have hdest := hs.dest
  have hpar : y * dst.mWidth.toNat % 2 = 0 := by
    rw [Nat.mul_mod, hs.even, Nat.mul_zero, Nat.zero_mod]
  rw [RowState.rowPos, hbuf, horigo, offsetOf, BitVec.le_def, BitVec.toNat_sub,
    BitVec.toNat_ofInt, BitVec.toInt_eq_toNat_cond, BitVec.toNat_ofNat, BitVec.toNat_ofNat]
  generalize y * dst.mWidth.toNat = o at *
  generalize dst.mWidth.toNat * dst.mHeight.toNat = a at *
  generalize dst.mWidth.toNat = w at *
  split <;> omega

/-- From behind a row of four to the same four columns in the next row. -/
theorem offsetOf_wrap {dst : BitmapParams} (heven : dst.mWidth.toNat % 2 = 0) (x y : Nat) :
    offsetOf dst (x + 4) y + 4 * (dst.mWidth / 2 - 2) = offsetOf dst x (y + 1) := by
  have hhalf : 4 * (dst.mWidth / 2) = BitVec.ofNat 32 (2 * dst.mWidth.toNat) := by
    apply BitVec.eq_of_toNat_eq
    rw [BitVec.toNat_mul, BitVec.toNat_udiv, BitVec.toNat_ofNat]
    show 4 * (dst.mWidth.toNat / 2) % 2 ^ 32 = _
    rw [show 4 * (dst.mWidth.toNat / 2) = 2 * dst.mWidth.toNat by omega]
  rw [offsetOf_add, offsetOf_next_row, ← hhalf]
  show offsetOf dst x y + 8 + 4 * (dst.mWidth / 2 - 2) = _
  generalize dst.mWidth / 2 = d
  bv_omega

/-- `dstRowOrigo += dst.mWidth`. -/
theorem origo_next (dst : BitmapParams) (y : Nat) :
    BitVec.ofNat 32 (y * dst.mWidth.toNat) + dst.mWidth =
      BitVec.ofNat 32 ((y + 1) * dst.mWidth.toNat) := by
  rw [Nat.succ_mul, BitVec.ofNat_add, BitVec.ofNat_toNat, BitVec.setWidth_eq]

/-- `ly * 16 * dst.mWidth`. -/
theorem origo_start (dst : BitmapParams) (ly : Nat) :
    BitVec.ofNat 32 ly * 16 * dst.mWidth = BitVec.ofNat 32 (16 * ly * dst.mWidth.toNat) := by
  rw [Nat.mul_comm 16 ly, BitVec.ofNat_mul, BitVec.ofNat_mul, BitVec.ofNat_toNat,
    BitVec.setWidth_eq]
  rfl

/-- The write of the word that holds the pixels in columns `x` and `x + 1`, if they exist. -/
def wordAccess (dst : BitmapParams) (x y : Nat) (v : BitVec 32) : List Access :=
  if x < dst.mWidth.toNat then [.write (offsetOf dst x y) v] else []

theorem storeWord_spec {dst : BitmapParams} {mx my : Nat} (hs : Sizes dst mx my) (rgb : Nat → Rgb)
    (half : Nat) {s : RowState} {x y : Nat} (hy : y < dst.mHeight.toNat) (hx : x < 2 ^ 27)
    (heven : x % 2 = 0) (hbuf : s.locBuf = offsetOf dst x y)
    (horigo : s.dstRowOrigo = BitVec.ofNat 32 (y * dst.mWidth.toNat)) :
    storeWord dst rgb half s = { s with
      locBuf := offsetOf dst (x + 2) y
      trace := s.trace ++
        wordAccess dst x y (rgbWord (rgb (2 * half)) (rgb (2 * half + 1))) } := by
  have htest := rowPos_le_iff hs hy hx heven hbuf horigo
  have hnext : offsetOf dst x y + 4 = offsetOf dst (x + 2) y := (offsetOf_add dst x y 2).symm
  unfold storeWord wordAccess
  by_cases hout : dst.mWidth.toNat ≤ x
  · rw [if_pos (htest.mpr hout), if_neg (by omega), List.append_nil, hbuf, hnext]
  · rw [if_neg (mt htest.mp hout), if_pos (by omega), hbuf, hnext]

/-- The two words of a row of four pixels. -/
theorem storeWords_spec {dst : BitmapParams} {mx my : Nat} (hs : Sizes dst mx my) (rgb : Nat → Rgb)
    {s : RowState} {x y : Nat} (hy : y < dst.mHeight.toNat) (hx : x + 4 < 2 ^ 27)
    (heven : x % 2 = 0) (hbuf : s.locBuf = offsetOf dst x y)
    (horigo : s.dstRowOrigo = BitVec.ofNat 32 (y * dst.mWidth.toNat)) :
    forUp 2 (storeWord dst rgb) s = { s with
      locBuf := offsetOf dst (x + 4) y
      trace := s.trace ++ (List.range 2).flatMap fun half =>
        wordAccess dst (x + 2 * half) y (rgbWord (rgb (2 * half)) (rgb (2 * half + 1))) } := by
  have hfirst := storeWord_spec hs rgb 0 hy (by omega) heven hbuf horigo
  show storeWord dst rgb 1 (storeWord dst rgb 0 s) = _
  rw [hfirst, storeWord_spec hs rgb 1 (x := x + 2) (y := y) hy (by omega) (by omega)]
  · rw [flatMap_range_succ, flatMap_range_succ]
    simp
  · rfl
  · exact horigo

/-! ### A row of four pixels -/

/-- What a row of a block does: `x` and `y` are the block's corner in the picture, `L` and `C` its
    first luma and chroma words. -/
def rowAccesses (mBits : Mem) (dst : BitmapParams) (x y L C row : Nat) : List Access :=
  let lumaWord := load32 mBits (L + 8 * row)
  let chromaWord1 := load32 mBits (C + 8 * (row / 2))
  .read (BitVec.ofNat 32 (L + 8 * row)) ::
    ((if row % 2 = 0 then [.read (BitVec.ofNat 32 (C + 8 * (row / 2)))] else []) ++
      (List.range 2).flatMap fun half =>
        wordAccess dst (x + 2 * half) (y + row)
          (rgbWord (pixel lumaWord chromaWord1 (2 * half))
            (pixel lumaWord chromaWord1 (2 * half + 1))))

/-- Where the pointers are before row `row` of a block.  On odd rows the chroma word is the one that
    the row before has loaded. -/
structure RowInv (mBits : Mem) (dst : BitmapParams) (x y L C : Nat) (t : Trace) (row : Nat)
    (s : RowState) : Prop where
  locBuf : s.locBuf = offsetOf dst x (y + row)
  dstRowOrigo : s.dstRowOrigo = BitVec.ofNat 32 ((y + row) * dst.mWidth.toNat)
  pWordLuma : s.pWordLuma = BitVec.ofNat 32 (L + 8 * row)
  pWordChroma : s.pWordChroma = BitVec.ofNat 32 (C + 8 * ((row + 1) / 2))
  chromaWord1 : row % 2 = 1 → s.chromaWord1 = load32 mBits (C + 8 * (row / 2))
  trace : s.trace = t ++ (List.range row).flatMap (rowAccesses mBits dst x y L C)

theorem word_ofNat (mBits : Mem) {a : Nat} (h : a < 2 ^ 32) :
    word mBits (BitVec.ofNat 32 a) = load32 mBits a := by
  rw [word, BitVec.toNat_ofNat, Nat.mod_eq_of_lt h]

/-- `pWordLuma += 2`. -/
theorem luma_next (L row : Nat) :
    BitVec.ofNat 32 (L + 8 * row) + 8 = BitVec.ofNat 32 (L + 8 * (row + 1)) :=
  (BitVec.ofNat_add (L + 8 * row) 8).symm

/-- `pWordChroma += 2`, on even rows. -/
theorem chroma_next (C : Nat) {row : Nat} (heven : row % 2 = 0) :
    BitVec.ofNat 32 (C + 8 * ((row + 1) / 2)) + 8 = BitVec.ofNat 32 (C + 8 * ((row + 2) / 2)) := by
  rw [show C + 8 * ((row + 2) / 2) = C + 8 * ((row + 1) / 2) + 8 by omega]
  exact (BitVec.ofNat_add _ 8).symm

/-- What is loaded for a row. -/
theorem loadWords_spec {mBits : Mem} {dst : BitmapParams} {x y L C row : Nat} {t : Trace}
    {s : RowState} (hi : RowInv mBits dst x y L C t row s) (hL : L + 128 < 2 ^ 32)
    (hC : C + 64 < 2 ^ 32) (hrow : row < 16) :
    loadWords mBits row s = (load32 mBits (L + 8 * row), { s with
      pWordLuma := BitVec.ofNat 32 (L + 8 * (row + 1))
      pWordChroma := BitVec.ofNat 32 (C + 8 * ((row + 2) / 2))
      chromaWord1 := load32 mBits (C + 8 * (row / 2))
      trace := s.trace ++ [.read (BitVec.ofNat 32 (L + 8 * row))] ++
        if row % 2 = 0 then [.read (BitVec.ofNat 32 (C + 8 * (row / 2)))] else [] }) := by
  simp only [loadWords]
  rw [hi.pWordLuma, hi.pWordChroma, word_ofNat mBits (by omega), word_ofNat mBits (by omega),
    luma_next]
  by_cases heven : row % 2 = 0
  · have hsame : (row + 1) / 2 = row / 2 := by omega
    rw [if_pos heven, if_pos heven, chroma_next C heven, hsame]
  · have hsame : (row + 1) / 2 = (row + 2) / 2 := by omega
    rw [if_neg heven, if_neg heven, List.append_nil, ← hi.chromaWord1 (by omega), ← hsame,
      ← hi.pWordChroma]

theorem not_below {dst : BitmapParams} {ly row : Nat} (h : 16 * ly + row < 2 ^ 32) :
    dst.mHeight ≤ BitVec.ofNat 32 ly * 16 + BitVec.ofNat 32 row ↔
      dst.mHeight.toNat ≤ 16 * ly + row := by
  rw [BitVec.le_def, BitVec.toNat_add, BitVec.toNat_mul, BitVec.toNat_ofNat, BitVec.toNat_ofNat]
  show _ ≤ (ly % 2 ^ 32 * 16 % 2 ^ 32 + row % 2 ^ 32) % 2 ^ 32 ↔ _
  omega

/-- A row of the destination is not cropped. -/
theorem not_cropped {dst : BitmapParams} {ly row : Nat} (hin : 16 * ly + row < dst.mHeight.toNat) :
    ¬ dst.mHeight ≤ BitVec.ofNat 32 ly * 16 + BitVec.ofNat 32 row := by
  have hlt := dst.mHeight.isLt
  rw [not_below (by omega)]
  omega

/-- The first row below the destination breaks. -/
theorem rowBody_stop (mBits : Mem) {dst : BitmapParams} {ly row : Nat} (s : RowState)
    (hlt : 16 * ly + row < 2 ^ 32) (hout : dst.mHeight.toNat ≤ 16 * ly + row) :
    rowBody mBits dst ly row s = .stop s := by
  unfold rowBody
  rw [if_pos ((not_below hlt).mpr hout)]

theorem rowBody_next {mBits : Mem} {dst : BitmapParams} {mx my : Nat} (hs : Sizes dst mx my)
    {ly x L C row : Nat} {t : Trace} {s : RowState}
    (hi : RowInv mBits dst x (16 * ly) L C t row s) (hL : L + 128 < 2 ^ 32)
    (hC : C + 64 < 2 ^ 32) (hx : x + 4 < 2 ^ 27) (heven : x % 2 = 0) (hrow : row < 16)
    (hin : 16 * ly + row < dst.mHeight.toNat) :
    ∃ s', rowBody mBits dst ly row s = .next s' ∧
      RowInv mBits dst x (16 * ly) L C t (row + 1) s' := by
  have hload := loadWords_spec hi hL hC hrow
  unfold rowBody
  rw [if_neg (not_cropped hin), hload]
  simp only
  rw [storeWords_spec hs _ (x := x) (y := 16 * ly + row) hin hx heven]
  · refine ⟨_, rfl, ?_, ?_, rfl, rfl, ?_, ?_⟩
    · exact offsetOf_wrap hs.even x (16 * ly + row)
    · show s.dstRowOrigo + dst.mWidth = _
      rw [hi.dstRowOrigo]
      exact origo_next dst (16 * ly + row)
    · intro hodd
      rw [show (row + 1) / 2 = row / 2 by omega]
    · simp only [hi.trace, flatMap_range_succ row, rowAccesses, List.append_assoc]
      rfl
  · exact hi.locBuf
  · exact hi.dstRowOrigo

/-! ### A block, a column, a macroblock -/

/-- The rows of a block that lie within the destination. -/
def blockAccesses (mBits : Mem) (dst : BitmapParams) (ly x L C : Nat) : List Access :=
  (List.range (min 16 (dst.mHeight.toNat - 16 * ly))).flatMap
    (rowAccesses mBits dst x (16 * ly) L C)

theorem rows_spec {mBits : Mem} {dst : BitmapParams} {mx my : Nat} (hs : Sizes dst mx my)
    {ly x L C : Nat} {s : RowState} (hly : 16 * ly + 16 < 2 ^ 32) (hx : x + 4 < 2 ^ 27)
    (heven : x % 2 = 0) (hL : L + 128 < 2 ^ 32) (hC : C + 64 < 2 ^ 32)
    (hbuf : 16 * ly < dst.mHeight.toNat → s.locBuf = offsetOf dst x (16 * ly))
    (horigo : s.dstRowOrigo = BitVec.ofNat 32 (16 * ly * dst.mWidth.toNat))
    (hluma : s.pWordLuma = BitVec.ofNat 32 L) (hchroma : s.pWordChroma = BitVec.ofNat 32 C) :
    (forBreak (rowBody mBits dst ly) 0 16 s).trace =
      s.trace ++ blockAccesses mBits dst ly x L C := by
  by_cases hin : 16 * ly < dst.mHeight.toNat
  · have h0 : RowInv mBits dst x (16 * ly) L C s.trace 0 s :=
      ⟨hbuf hin, horigo, hluma, hchroma, by omega, by simp⟩
    have hend := forBreak_inv (RowInv mBits dst x (16 * ly) L C s.trace)
      (b := min 16 (dst.mHeight.toNat - 16 * ly)) (N := 16) (by omega)
      (fun row _ hrow hi => rowBody_next hs hi hL hC hx heven (by omega) (by omega))
      (fun s' hb _ => rowBody_stop mBits s' (by omega) (by omega))
      16 0 rfl (by omega) h0
    exact hend.trace
  · -- the whole block lies below the destination, and the first row breaks
    have hstop : rowBody mBits dst ly 0 s = .stop s := rowBody_stop mBits s (by omega) (by omega)
    have hnone : blockAccesses mBits dst ly x L C = [] := by
      unfold blockAccesses
      rw [show min 16 (dst.mHeight.toNat - 16 * ly) = 0 by omega]
      rfl
    rw [forBreak, hstop, hnone, List.append_nil]

/-- The first word of a block, from that of its column. -/
theorem blockWord {nbOfBlock : Nat} (hnb : nbOfBlock < 2) (a : Nat) :
    (match nbOfBlock with
      | 0 => BitVec.ofNat 32 a
      | _ => BitVec.ofNat 32 a + 4) = BitVec.ofNat 32 (a + 4 * nbOfBlock) := by
  match nbOfBlock, hnb with
  | 0, _ => rfl
  | 1, _ => exact (BitVec.ofNat_add a 4).symm

/-- Where the pointers are before a block or a column, and what has been accessed. -/
structure BlockInv (L C : Nat) (t : Trace) (s : BlockState) : Prop where
  pBurstLuma : s.pBurstLuma = BitVec.ofNat 32 L
  pBurstChroma : s.pBurstChroma = BitVec.ofNat 32 C
  trace : s.trace = t

theorem blockBody_spec {mBits : Mem} {dst : BitmapParams} {mx my : Nat} (hs : Sizes dst mx my)
    {ly x L C col nbOfBlock : Nat} {dstBuf : Ptr} {t : Trace} {s : BlockState}
    (hi : BlockInv L C t s) (hly : 16 * ly + 16 < 2 ^ 32) (hx : x + 16 < 2 ^ 27)
    (heven : x % 2 = 0) (hL : L + 256 < 2 ^ 32) (hC : C + 256 < 2 ^ 32) (hcol : col < 2)
    (hnb : nbOfBlock < 2)
    (hbuf : 16 * ly < dst.mHeight.toNat → dstBuf = offsetOf dst x (16 * ly)) :
    BlockInv L C
      (t ++ blockAccesses mBits dst ly (x + 8 * col + 4 * nbOfBlock) (L + 4 * nbOfBlock)
        (C + 4 * nbOfBlock))
      (blockBody mBits dst ly dstBuf col nbOfBlock s) := by
  refine ⟨hi.pBurstLuma, hi.pBurstChroma, ?_⟩
  rw [← hi.trace]
  have hcols : BitVec.ofNat 32 (2 * (8 * col + 4 * nbOfBlock)) =
      4 * (4 * BitVec.ofNat 32 col + 2 * BitVec.ofNat 32 nbOfBlock) := by
    rw [show 2 * (8 * col + 4 * nbOfBlock) = 4 * (4 * col + 2 * nbOfBlock) by omega,
      BitVec.ofNat_mul, BitVec.ofNat_add, BitVec.ofNat_mul, BitVec.ofNat_mul]
    rfl
  refine rows_spec hs hly (by omega) (by omega) (by omega) (by omega) (fun hin => ?_) ?_ ?_ ?_
  · show dstBuf + _ = _
    rw [hbuf hin, Nat.add_assoc, offsetOf_add, hcols]
  · exact origo_start dst ly
  · rw [← blockWord hnb L, ← hi.pBurstLuma]
    match nbOfBlock with
    | 0 => rfl
    | _ + 1 => rfl
  · rw [← blockWord hnb C, ← hi.pBurstChroma]
    match nbOfBlock with
    | 0 => rfl
    | _ + 1 => rfl

/-- A column of eight: two blocks of four, side by side. -/
def colAccesses (mBits : Mem) (dst : BitmapParams) (ly x L C : Nat) : List Access :=
  (List.range 2).flatMap fun nbOfBlock =>
    blockAccesses mBits dst ly (x + 4 * nbOfBlock) (L + 4 * nbOfBlock) (C + 4 * nbOfBlock)

theorem colBody_spec {mBits : Mem} {dst : BitmapParams} {mx my : Nat} (hs : Sizes dst mx my)
    {ly x L C col : Nat} {dstBuf : Ptr} {t : Trace} {s : BlockState} (hi : BlockInv L C t s)
    (hly : 16 * ly + 16 < 2 ^ 32) (hx : x + 16 < 2 ^ 27) (heven : x % 2 = 0)
    (hL : L + 256 < 2 ^ 32) (hC : C + 256 < 2 ^ 32) (hcol : col < 2)
    (hbuf : 16 * ly < dst.mHeight.toNat → dstBuf = offsetOf dst x (16 * ly)) :
    BlockInv (L + 128) (C + 64) (t ++ colAccesses mBits dst ly (x + 8 * col) L C)
      (colBody mBits dst ly dstBuf col s) := by
  have hblocks : BlockInv L C (t ++ colAccesses mBits dst ly (x + 8 * col) L C)
      (forUp 2 (blockBody mBits dst ly dstBuf col) s) := by
    refine forUp_inv (fun nb => BlockInv L C (t ++ (List.range nb).flatMap fun nbOfBlock =>
      blockAccesses mBits dst ly (x + 8 * col + 4 * nbOfBlock) (L + 4 * nbOfBlock)
        (C + 4 * nbOfBlock))) 2 (by simpa using hi) ?_
    intro nb s' hnb hi'
    rw [flatMap_range_succ, ← List.append_assoc]
    exact blockBody_spec hs hi' hly hx heven hL hC hcol hnb hbuf
  refine ⟨?_, ?_, hblocks.trace⟩
  · show (forUp 2 _ s).pBurstLuma + _ = _
    rw [hblocks.pBurstLuma]
    exact (BitVec.ofNat_add L 128).symm
  · show (forUp 2 _ s).pBurstChroma + _ = _
    rw [hblocks.pBurstChroma]
    exact (BitVec.ofNat_add C 64).symm

def macroblockAccesses (mBits : Mem) (dst : BitmapParams) (ly lx L C : Nat) : List Access :=
  (List.range 2).flatMap fun col =>
    colAccesses mBits dst ly (16 * lx + 8 * col) (L + 128 * col) (C + 64 * col)

/-- Where the pointers are before a macroblock, and what has been accessed. -/
structure PictureInv (L C : Nat) (t : Trace) (s : PictureState) : Prop where
  pLuma : s.pLuma = BitVec.ofNat 32 L
  pChroma : s.pChroma = BitVec.ofNat 32 C
  trace : s.trace = t

/-- The first pixel of a macroblock that begins within the destination. -/
theorem dstBuf_eq {dst : BitmapParams} {mx my : Nat} (hs : Sizes dst mx my) {ly lx : Nat}
    (hly : 16 * ly + 16 < 2 ^ 32) (hin : 16 * ly < dst.mHeight.toNat) :
    4 * (BitVec.ofNat 32 ly * 16 * dst.mWidth / 2) + 4 * (BitVec.ofNat 32 lx * 16 / 2) =
      offsetOf dst (16 * lx) (16 * ly) := by
  have hrow := row_offset_le (W := dst.mWidth.toNat) hin
  have hdest := hs.dest
  have hassoc : 16 * ly * dst.mWidth.toNat = 16 * (ly * dst.mWidth.toNat) := Nat.mul_assoc ..
  have hprod : (BitVec.ofNat 32 ly * 16 * dst.mWidth).toNat = 16 * (ly * dst.mWidth.toNat) := by
    rw [BitVec.toNat_mul, BitVec.toNat_mul, BitVec.toNat_ofNat]
    show ly % 2 ^ 32 * 16 % 2 ^ 32 * dst.mWidth.toNat % 2 ^ 32 = _
    rw [show ly % 2 ^ 32 * 16 % 2 ^ 32 = 16 * ly by omega, Nat.mod_eq_of_lt (by omega), hassoc]
  apply BitVec.eq_of_toNat_eq
  rw [offsetOf, hassoc, BitVec.toNat_add, BitVec.toNat_mul, BitVec.toNat_udiv, hprod,
    BitVec.toNat_mul, BitVec.toNat_udiv, BitVec.toNat_mul, BitVec.toNat_ofNat, BitVec.toNat_ofNat]
  show (4 * (16 * (ly * dst.mWidth.toNat) / 2) % 2 ^ 32 +
    4 * (lx % 2 ^ 32 * 16 % 2 ^ 32 / 2) % 2 ^ 32) % 2 ^ 32 = _
  omega

theorem macroblockBody_spec {mBits : Mem} {dst : BitmapParams} {mx my : Nat}
    (hs : Sizes dst mx my) {ly lx L C : Nat} {t : Trace} {s : PictureState}
    (hi : PictureInv L C t s) (hly : 16 * ly + 16 < 2 ^ 32) (hlx : 16 * lx + 16 < 2 ^ 27)
    (hL : L + 384 < 2 ^ 32) (hC : C + 320 < 2 ^ 32) :
    PictureInv (L + 256) (C + 128) (t ++ macroblockAccesses mBits dst ly lx L C)
      (macroblockBody mBits dst ly lx s) := by
  have hcols : BlockInv (L + 128 * 2) (C + 64 * 2) (t ++ macroblockAccesses mBits dst ly lx L C)
      (forUp 2 (colBody mBits dst ly
        (4 * (BitVec.ofNat 32 ly * 16 * dst.mWidth / 2) + 4 * (BitVec.ofNat 32 lx * 16 / 2)))
        { pBurstLuma := s.pLuma, pBurstChroma := s.pChroma, chromaWord1 := 0,
          trace := s.trace }) := by
    refine forUp_inv (fun n => BlockInv (L + 128 * n) (C + 64 * n)
      (t ++ (List.range n).flatMap fun col =>
        colAccesses mBits dst ly (16 * lx + 8 * col) (L + 128 * col) (C + 64 * col))) 2 ?_ ?_
    · exact ⟨hi.pLuma, hi.pChroma, by simpa using hi.trace⟩
    · intro col s' hcol hi'
      rw [flatMap_range_succ, ← List.append_assoc]
      exact colBody_spec hs (L := L + 128 * col) (C := C + 64 * col) hi' hly hlx (by omega)
        (by omega) (by omega) hcol (dstBuf_eq hs hly)
  refine ⟨?_, ?_, hcols.trace⟩
  · show s.pLuma + _ = _
    rw [hi.pLuma]
    exact (BitVec.ofNat_add L 256).symm
  · show s.pChroma + _ = _
    rw [hi.pChroma]
    exact (BitVec.ofNat_add C 128).symm

/-! ### The picture -/

/-- Everything the function accesses, macroblock by macroblock. -/
def pictureAccesses (mBits : Mem) (dst : BitmapParams) (mx my : Nat) : List Access :=
  (List.range my).flatMap fun ly => (List.range mx).flatMap fun lx =>
    macroblockAccesses mBits dst ly lx (256 * (ly * mx + lx))
      (256 * (mx * my) + 128 * (ly * mx + lx))

/-- The macroblock in column `lx` of row `ly` is one of the picture's. -/
theorem macroblock_lt {mx my ly lx : Nat} (hly : ly < my) (hlx : lx < mx) :
    ly * mx + lx + 1 ≤ mx * my := by
  calc ly * mx + lx + 1 ≤ ly * mx + mx := by omega
    _ ≤ mx * my := row_offset_le hly

theorem picture_spec (mBits : Mem) {dst : BitmapParams} {mx my : Nat} (hs : Sizes dst mx my)
    {s : PictureState} (hi : PictureInv 0 (256 * (mx * my)) [] s) :
    (forUp my (fun ly => forUp mx (macroblockBody mBits dst ly)) s).trace =
      pictureAccesses mBits dst mx my := by
  have hsource := hs.source
  have hend : PictureInv (256 * (my * mx)) (256 * (mx * my) + 128 * (my * mx))
      (pictureAccesses mBits dst mx my)
      (forUp my (fun ly => forUp mx (macroblockBody mBits dst ly)) s) := by
    refine forUp_inv (fun ly => PictureInv (256 * (ly * mx)) (256 * (mx * my) + 128 * (ly * mx))
      ((List.range ly).flatMap fun ly => (List.range mx).flatMap fun lx =>
        macroblockAccesses mBits dst ly lx (256 * (ly * mx + lx))
          (256 * (mx * my) + 128 * (ly * mx + lx)))) my (by simpa using hi) ?_
    intro ly s hly hi
    rw [flatMap_range_succ, show (ly + 1) * mx = ly * mx + mx by ring]
    refine forUp_inv (fun lx => PictureInv (256 * (ly * mx + lx))
      (256 * (mx * my) + 128 * (ly * mx + lx))
      (_ ++ (List.range lx).flatMap fun lx =>
        macroblockAccesses mBits dst ly lx (256 * (ly * mx + lx))
          (256 * (mx * my) + 128 * (ly * mx + lx)))) mx (by simpa using hi) ?_
    intro lx s hlx hi
    have hm := macroblock_lt hly hlx
    have hmx : mx ≤ mx * my := Nat.le_mul_of_pos_right mx (by omega)
    have hmy : my ≤ mx * my := Nat.le_mul_of_pos_left my (by omega)
    rw [flatMap_range_succ, ← List.append_assoc]
    exact macroblockBody_spec hs (L := 256 * (ly * mx + lx))
      (C := 256 * (mx * my) + 128 * (ly * mx + lx)) hi (by omega) (by omega) (by omega) (by omega)
  exact hend.trace

end Codina.Media
