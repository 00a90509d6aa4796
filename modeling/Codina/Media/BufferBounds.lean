/-
  `convertSTEYUV420PackedSemiPlanarMB`: every access lies within its buffer.

  Nothing is assumed about the sizes here.  The words read are bounded by the block counts, which are
  rounded down.  The words written are bounded by the two tests alone, wherever `locBuf` has got to:
  `rowPos` is below the width only for a pointer into the row that `dstRowOrigo` names, and that row
  is one of the destination (`write_inside`).  So the invariants of the loops say where the source
  pointers and the row are, and of `locBuf` only that it points at a word.
-/
import Codina.Media.ConvertedPixels

namespace Codina.Media

open Codina.Bytes Codina.Loops

/-! ## Words inside the buffers -/

/-- The word read lies within the `mWidth * mHeight * 3 / 2` bytes of the source, the word written
    within the `mWidth * mHeight * 2` bytes of the destination. -/
def Access.Inside (src dst : BitmapParams) : Access → Prop
  | .read p => p.toNat + 4 ≤ src.mWidth.toNat * src.mHeight.toNat * 3 / 2
  | .write p _ => p.toNat + 4 ≤ dst.mWidth.toNat * dst.mHeight.toNat * 2

def AllInside (src dst : BitmapParams) (t : Trace) : Prop := ∀ a ∈ t, a.Inside src dst

theorem allInside_append {src dst : BitmapParams} {t : Trace} {a : Access}
    (ht : AllInside src dst t) (ha : a.Inside src dst) : AllInside src dst (t ++ [a]) := by
  intro b hb
  rcases List.mem_append.mp hb with hb | hb
  · exact ht b hb
  · rw [List.mem_singleton.mp hb]
    exact ha

/-- The bytes that the macroblocks of the source take up. -/
def sourceBytes (src : BitmapParams) : Nat :=
  384 * (src.mWidth.toNat / 16 * (src.mHeight.toNat / 16))

/-- A wrapped offset is never behind the offset itself. -/
theorem read_inside {src : BitmapParams} (dst : BitmapParams) {a : Nat}
    (h : a + 4 ≤ sourceBytes src) : (Access.read (BitVec.ofNat 32 a)).Inside src dst := by
  have hle := macroblocks_le src
  have hmod : a % 2 ^ 32 ≤ a := Nat.mod_le a _
  show (BitVec.ofNat 32 a).toNat + 4 ≤ _
  rw [BitVec.toNat_ofNat]
  unfold sourceBytes at h
  omega

/-- A pointer to a word, the buffers being aligned. -/
def Aligned (p : Ptr) : Prop := p.toNat % 4 = 0

theorem aligned_words (n : BitVec 32) : Aligned (4 * n) := by
  show (4 * n).toNat % 4 = 0
  rw [BitVec.toNat_mul]
  show 4 * n.toNat % 2 ^ 32 % 4 = 0
  omega

theorem aligned_add {p q : Ptr} (hp : Aligned p) (hq : Aligned q) : Aligned (p + q) := by
  unfold Aligned at *
  rw [BitVec.toNat_add]
  omega

/-- **The tests against the edges are enough.**  A pointer that passes the test against the right edge
    in a row above the bottom edge points into the destination, whatever it is. -/
theorem write_inside (src : BitmapParams) {dst : BitmapParams} {s : RowState} {y : Nat}
    (v : BitVec 32) (heven : dst.mWidth.toNat % 2 = 0) (hy : y < dst.mHeight.toNat)
    (hword : Aligned s.locBuf) (horigo : s.dstRowOrigo = BitVec.ofNat 32 (y * dst.mWidth.toNat))
    (htest : ¬ dst.mWidth ≤ s.rowPos) : (Access.write s.locBuf v).Inside src dst := by
  have hrow := row_offset_le (W := dst.mWidth.toNat) hy
  have hpar : y * dst.mWidth.toNat % 2 = 0 := by
    rw [Nat.mul_mod, heven, Nat.mul_zero, Nat.zero_mod]
  have hbuf := s.locBuf.isLt
  show s.locBuf.toNat + 4 ≤ _
  unfold Aligned at hword
  rw [RowState.rowPos, horigo, BitVec.le_def, BitVec.toNat_sub, BitVec.toNat_ofInt,
    BitVec.toInt_eq_toNat_cond, BitVec.toNat_ofNat] at htest
  generalize y * dst.mWidth.toNat = o at *
  generalize dst.mWidth.toNat * dst.mHeight.toNat = a at *
  generalize dst.mWidth.toNat = w at *
  generalize s.locBuf.toNat = p at *
  split at htest <;> omega

/-! ## A row of four pixels -/

/-- Before row `row` of a block: `y` is the block's first row in the picture, `L` and `C` are its
    first luma and chroma words. -/
structure RowInside (src dst : BitmapParams) (y L C row : Nat) (s : RowState) : Prop where
  locBuf : Aligned s.locBuf
  dstRowOrigo : s.dstRowOrigo = BitVec.ofNat 32 ((y + row) * dst.mWidth.toNat)
  pWordLuma : s.pWordLuma = BitVec.ofNat 32 (L + 8 * row)
  pWordChroma : s.pWordChroma = BitVec.ofNat 32 (C + 8 * ((row + 1) / 2))
  trace : AllInside src dst s.trace

theorem storeWord_inside {src dst : BitmapParams} {s : RowState} {y : Nat} (rgb : Nat → Rgb)
    (half : Nat) (heven : dst.mWidth.toNat % 2 = 0) (hy : y < dst.mHeight.toNat)
    (hword : Aligned s.locBuf) (horigo : s.dstRowOrigo = BitVec.ofNat 32 (y * dst.mWidth.toNat))
    (ht : AllInside src dst s.trace) :
    ∃ t, storeWord dst rgb half s = { s with locBuf := s.locBuf + 4, trace := t } ∧
      AllInside src dst t := by
  unfold storeWord
  by_cases hout : dst.mWidth ≤ s.rowPos
  · rw [if_pos hout]
    exact ⟨s.trace, rfl, ht⟩
  · rw [if_neg hout]
    exact ⟨_, rfl, allInside_append ht (write_inside src _ heven hy hword horigo hout)⟩

theorem storeWords_inside {src dst : BitmapParams} {s : RowState} {y : Nat} (rgb : Nat → Rgb)
    (heven : dst.mWidth.toNat % 2 = 0) (hy : y < dst.mHeight.toNat)
    (hword : Aligned s.locBuf) (horigo : s.dstRowOrigo = BitVec.ofNat 32 (y * dst.mWidth.toNat))
    (ht : AllInside src dst s.trace) :
    ∃ t, forUp 2 (storeWord dst rgb) s = { s with locBuf := s.locBuf + 4 + 4, trace := t } ∧
      AllInside src dst t := by
  obtain ⟨t, hfirst, ht⟩ := storeWord_inside rgb 0 heven hy hword horigo ht
  obtain ⟨t', hsecond, ht'⟩ := storeWord_inside (s := { s with locBuf := s.locBuf + 4, trace := t })
    rgb 1 heven hy (aligned_add hword (aligned_words 1)) horigo ht
  refine ⟨t', ?_, ht'⟩
  show storeWord dst rgb 1 (storeWord dst rgb 0 s) = _
  rw [hfirst, hsecond]

theorem loadWords_inside {src dst : BitmapParams} (mBits : Mem) {y L C row : Nat} {s : RowState}
    (hi : RowInside src dst y L C row s) (hL : L + 124 ≤ sourceBytes src)
    (hC : C + 60 ≤ sourceBytes src) (hrow : row < 16) :
    (loadWords mBits row s).2.locBuf = s.locBuf ∧
      (loadWords mBits row s).2.dstRowOrigo = s.dstRowOrigo ∧
      (loadWords mBits row s).2.pWordLuma = BitVec.ofNat 32 (L + 8 * (row + 1)) ∧
      (loadWords mBits row s).2.pWordChroma = BitVec.ofNat 32 (C + 8 * ((row + 2) / 2)) ∧
      AllInside src dst (loadWords mBits row s).2.trace := by
  have hluma : s.pWordLuma + 8 = BitVec.ofNat 32 (L + 8 * (row + 1)) := by
    rw [hi.pWordLuma, luma_next]
  have hfirst : AllInside src dst (s.trace ++ [.read s.pWordLuma]) := by
    rw [hi.pWordLuma]
    exact allInside_append hi.trace (read_inside dst (by omega))
  unfold loadWords
  by_cases heven : row % 2 = 0
  · have hchroma : s.pWordChroma + 8 = BitVec.ofNat 32 (C + 8 * ((row + 2) / 2)) := by
      rw [hi.pWordChroma, chroma_next C heven]
    have hsecond : (Access.read s.pWordChroma).Inside src dst := by
      rw [hi.pWordChroma]
      exact read_inside dst (by omega)
    rw [if_pos heven]
    exact ⟨rfl, rfl, hluma, hchroma, allInside_append hfirst hsecond⟩
  · have hsame : (row + 2) / 2 = (row + 1) / 2 := by omega
    rw [if_neg heven, hsame]
    exact ⟨rfl, rfl, hluma, hi.pWordChroma, hfirst⟩

theorem rowBody_inside {src dst : BitmapParams} (mBits : Mem) {ly L C row : Nat} {s : RowState}
    (heven : dst.mWidth.toNat % 2 = 0) (hi : RowInside src dst (16 * ly) L C row s)
    (hL : L + 124 ≤ sourceBytes src) (hC : C + 60 ≤ sourceBytes src) (hrow : row < 16)
    (hin : 16 * ly + row < dst.mHeight.toNat) :
    ∃ s', rowBody mBits dst ly row s = .next s' ∧ RowInside src dst (16 * ly) L C (row + 1) s' := by
  obtain ⟨hbuf, horigo, hluma, hchroma, ht⟩ := loadWords_inside mBits hi hL hC hrow
  unfold rowBody
  rw [if_neg (not_cropped hin)]
  generalize loadWords mBits row s = loaded at *
  obtain ⟨lumaWord, s₁⟩ := loaded
  obtain ⟨t, hstore, ht'⟩ := storeWords_inside (pixel lumaWord s₁.chromaWord1) heven hin
    (hbuf ▸ hi.locBuf) (horigo.trans hi.dstRowOrigo) ht
  simp only
  rw [hstore]
  refine ⟨_, rfl, ?_, ?_, hluma, hchroma, ht'⟩
  · have hnext : Aligned (s₁.locBuf + 4 + 4) :=
      aligned_add (aligned_add (hbuf ▸ hi.locBuf) (aligned_words 1)) (aligned_words 1)
    exact aligned_add hnext (aligned_words _)
  · show s₁.dstRowOrigo + dst.mWidth = _
    rw [show s₁.dstRowOrigo = _ from horigo, hi.dstRowOrigo]
    exact origo_next dst (16 * ly + row)

/-! ## The loops around it -/

theorem rows_inside {src dst : BitmapParams} (mBits : Mem) {ly L C : Nat} {s : RowState}
    (heven : dst.mWidth.toNat % 2 = 0) (hly : 16 * ly + 16 ≤ 2 ^ 32)
    (hL : L + 124 ≤ sourceBytes src) (hC : C + 60 ≤ sourceBytes src)
    (hi : RowInside src dst (16 * ly) L C 0 s) :
    AllInside src dst (forBreak (rowBody mBits dst ly) 0 16 s).trace := by
  have hend := forBreak_inv (RowInside src dst (16 * ly) L C)
    (b := min 16 (dst.mHeight.toNat - 16 * ly)) (N := 16) (by omega)
    (fun row _ hrow hi => rowBody_inside mBits heven hi hL hC (by omega) (by omega))
    (fun s' hb _ => rowBody_stop mBits s' (by omega) (by omega))
    16 0 rfl (by omega) hi
  exact hend.trace

/-- Before a block or a column. -/
structure BlockInside (src dst : BitmapParams) (L C : Nat) (s : BlockState) : Prop where
  pBurstLuma : s.pBurstLuma = BitVec.ofNat 32 L
  pBurstChroma : s.pBurstChroma = BitVec.ofNat 32 C
  trace : AllInside src dst s.trace

theorem blockBody_inside {src dst : BitmapParams} (mBits : Mem) {ly L C nbOfBlock : Nat}
    {dstBuf : Ptr} (col : Nat) {s : BlockState} (heven : dst.mWidth.toNat % 2 = 0)
    (hly : 16 * ly + 16 ≤ 2 ^ 32) (hL : L + 128 ≤ sourceBytes src)
    (hC : C + 64 ≤ sourceBytes src) (hbuf : Aligned dstBuf) (hnb : nbOfBlock < 2)
    (hi : BlockInside src dst L C s) :
    BlockInside src dst L C (blockBody mBits dst ly dstBuf col nbOfBlock s) := by
  refine ⟨hi.pBurstLuma, hi.pBurstChroma, ?_⟩
  refine rows_inside mBits (L := L + 4 * nbOfBlock) (C := C + 4 * nbOfBlock) heven hly (by omega)
    (by omega) ?_
  constructor
  case locBuf => exact aligned_add hbuf (aligned_words _)
  case dstRowOrigo => exact origo_start dst ly
  case pWordLuma =>
    rw [Nat.mul_zero, Nat.add_zero, ← blockWord hnb L, ← hi.pBurstLuma]
    match nbOfBlock with
    | 0 => rfl
    | _ + 1 => rfl
  case pWordChroma =>
    rw [show 8 * ((0 + 1) / 2) = 0 from rfl, Nat.add_zero, ← blockWord hnb C, ← hi.pBurstChroma]
    match nbOfBlock with
    | 0 => rfl
    | _ + 1 => rfl
  case trace => exact hi.trace

theorem colBody_inside {src dst : BitmapParams} (mBits : Mem) {ly L C : Nat} {dstBuf : Ptr}
    (col : Nat) {s : BlockState} (heven : dst.mWidth.toNat % 2 = 0)
    (hly : 16 * ly + 16 ≤ 2 ^ 32) (hL : L + 128 ≤ sourceBytes src)
    (hC : C + 64 ≤ sourceBytes src) (hbuf : Aligned dstBuf) (hi : BlockInside src dst L C s) :
    BlockInside src dst (L + 128) (C + 64) (colBody mBits dst ly dstBuf col s) := by
  have hblocks : BlockInside src dst L C (forUp 2 (blockBody mBits dst ly dstBuf col) s) :=
    forUp_inv (fun _ => BlockInside src dst L C) 2 hi fun nb s' hnb hi' =>
      blockBody_inside mBits col heven hly hL hC hbuf hnb hi'
  refine ⟨?_, ?_, hblocks.trace⟩
  · show (forUp 2 _ s).pBurstLuma + _ = _
    rw [hblocks.pBurstLuma]
    exact (BitVec.ofNat_add L 128).symm
  · show (forUp 2 _ s).pBurstChroma + _ = _
    rw [hblocks.pBurstChroma]
    exact (BitVec.ofNat_add C 64).symm

/-- Before a macroblock. -/
structure PictureInside (src dst : BitmapParams) (L C : Nat) (s : PictureState) : Prop where
  pLuma : s.pLuma = BitVec.ofNat 32 L
  pChroma : s.pChroma = BitVec.ofNat 32 C
  trace : AllInside src dst s.trace

theorem macroblockBody_inside {src dst : BitmapParams} (mBits : Mem) {ly L C : Nat} (lx : Nat)
    {s : PictureState} (heven : dst.mWidth.toNat % 2 = 0) (hly : 16 * ly + 16 ≤ 2 ^ 32)
    (hL : L + 256 ≤ sourceBytes src) (hC : C + 128 ≤ sourceBytes src)
    (hi : PictureInside src dst L C s) :
    PictureInside src dst (L + 256) (C + 128) (macroblockBody mBits dst ly lx s) := by
  have hcols : BlockInside src dst (L + 128 * 2) (C + 64 * 2)
      (forUp 2 (colBody mBits dst ly
        (4 * (BitVec.ofNat 32 ly * 16 * dst.mWidth / 2) + 4 * (BitVec.ofNat 32 lx * 16 / 2)))
        { pBurstLuma := s.pLuma, pBurstChroma := s.pChroma, chromaWord1 := 0,
          trace := s.trace }) :=
    forUp_inv (fun n => BlockInside src dst (L + 128 * n) (C + 64 * n)) 2
      ⟨hi.pLuma, hi.pChroma, hi.trace⟩ fun col s' hcol hi' =>
        colBody_inside mBits (L := L + 128 * col) (C := C + 64 * col) col heven hly (by omega)
          (by omega) (aligned_add (aligned_words _) (aligned_words _)) hi'
  refine ⟨?_, ?_, hcols.trace⟩
  · show s.pLuma + _ = _
    rw [hi.pLuma]
    exact (BitVec.ofNat_add L 256).symm
  · show s.pChroma + _ = _
    rw [hi.pChroma]
    exact (BitVec.ofNat_add C 128).symm

theorem picture_inside {src dst : BitmapParams} (mBits : Mem) (mx my : Nat) {s : PictureState}
    (heven : dst.mWidth.toNat % 2 = 0) (hmy : 16 * my < 2 ^ 32)
    (hsrc : 384 * (mx * my) ≤ sourceBytes src)
    (hi : PictureInside src dst 0 (256 * (mx * my)) s) :
    AllInside src dst (forUp my (fun ly => forUp mx (macroblockBody mBits dst ly)) s).trace := by
  have hend : PictureInside src dst (256 * (my * mx)) (256 * (mx * my) + 128 * (my * mx))
      (forUp my (fun ly => forUp mx (macroblockBody mBits dst ly)) s) := by
    refine forUp_inv (fun ly => PictureInside src dst (256 * (ly * mx))
      (256 * (mx * my) + 128 * (ly * mx))) my (by simpa using hi) ?_
    intro ly s hly hi
    rw [show (ly + 1) * mx = ly * mx + mx by ring]
    refine forUp_inv (fun lx => PictureInside src dst (256 * (ly * mx + lx))
      (256 * (mx * my) + 128 * (ly * mx + lx))) mx (by simpa using hi) ?_
    intro lx s hlx hi
    have hm := macroblock_lt hly hlx
    exact macroblockBody_inside mBits (L := 256 * (ly * mx + lx))
      (C := 256 * (mx * my) + 128 * (ly * mx + lx)) lx heven (by omega) (by omega) (by omega) hi
  exact hend.trace

/-- **The conversion stays inside both buffers**, for any sizes and crop rectangles: where the test it
    begins with fails it accesses nothing. -/
theorem convert_inside (mBits : Mem) (src dst : BitmapParams) :
    AllInside src dst (convertSTEYUV420PackedSemiPlanarMB mBits src dst).2 := by
  unfold convertSTEYUV420PackedSemiPlanarMB
  by_cases hrej : accepts src dst = false
  · rw [if_pos hrej]
    intro a ha
    exact absurd ha List.not_mem_nil
  · rw [if_neg hrej]
    have heven := even_of_accepts (Bool.eq_true_of_not_eq_false hrej)
    have hstart := pictureInv_start src
    have hlt := src.mHeight.isLt
    exact picture_inside mBits (src.mWidth.toNat / 16) (src.mHeight.toNat / 16) heven (by omega)
      (Nat.le_refl _) ⟨hstart.pLuma, hstart.pChroma, fun a ha => absurd ha List.not_mem_nil⟩

/-- Of a macroblock over a 2x1 destination one row of each block is read and one word is written. -/
example : (convertSTEYUV420PackedSemiPlanarMB (fun _ => 0) ⟨16, 16, 0, 0, 1, 0⟩
    ⟨2, 1, 0, 0, 1, 0⟩).2.length = 9 := by decide

end Codina.Media
