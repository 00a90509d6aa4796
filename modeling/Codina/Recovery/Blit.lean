/-
  The drawing functions that copy a picture: `gr_texticon` and `gr_blit`.

  An icon is blended as text is.  A blit is copied row by row, all four bytes of a pixel, from a
  rectangle of its source that nothing checks: `gr_blit` is defined exactly where no `int` that it computes
  overflows and that rectangle begins and ends inside the bytes of the source (`gr_blit_defined_iff`).
-/
import Codina.Recovery.Drawing

namespace Codina.Recovery.Drawing

open Codina.Faults Codina.Faults.Prog Codina.Ints Codina.Raster

variable {g : Globals} {b : Block} {A : Prop}

/-! ## `gr_texticon` -/

/-- The pixels of an icon; none where a corner lies outside. -/
def Iconed (g : Globals) (icon : GRSurface) (x y : Int) (t : Nat × Nat × Nat) : Prop :=
  icon.pixel_bytes = 1 ∧
  (¬ outside g (x + g.overscan_offset_x) (y + g.overscan_offset_y) ∧
    ¬ outside g (x + g.overscan_offset_x + icon.width - 1) (y + g.overscan_offset_y + icon.height - 1)) ∧
  Strip (x + g.overscan_offset_x) (y + g.overscan_offset_y) icon.width icon.height t

/-- The byte of an icon at `x`, `y` that a pixel shows. -/
def iconTexel (g : Globals) (icon : GRSurface) (x y : Int) (t : Nat × Nat × Nat) : Byte :=
  icon.data.byte ((t.1 - (y + g.overscan_offset_y)).toNat * icon.row_bytes +
    (t.2.1 - (x + g.overscan_offset_x)).toNat)

/-- The `int`s that `gr_texticon` computes from its coordinates. -/
def IconFits (g : Globals) (icon : GRSurface) (x y : Int) : Prop :=
  OffsetFits g x y ∧ CornerFits g (x + g.overscan_offset_x) (y + g.overscan_offset_y) icon.width icon.height

theorem gr_texticon_draws {icon : GRSurface} (x y : Int) (hv : g.gr_draw.Valid b.size)
    (hf : icon.pixel_bytes = 1 → IconFits g icon x y)
    (him : icon.pixel_bytes = 1 → Images icon 0 icon.width icon.height) :
    Ensures A (gr_texticon g x y (some icon)) (fun _ b' => Edits (Iconed g icon x y) g.gr_draw.byteAt
      (fun t => mix (coverage g (iconTexel g icon x y t)) (color g t.2.2)) b b') b := by
  rw [gr_texticon]
  refine ensures_ite (fun hformat => ensures_pure (edits_none fun t ht => hformat ht.1)) fun hformat => ?_
  have hone : icon.pixel_bytes = 1 := not_not.mp hformat
  obtain ⟨⟨hx, hy⟩, hcorner⟩ := hf hone
  refine ensures_bind (ensures_signed hx (ensures_bind (ensures_signed hy (ensures_misses hcorner
    (fun hout => ensures_pure (edits_none fun t ht => ?_)) fun h₁ h₂ => ?_))))
  · exact hout.elim ht.2.1.1 ht.2.1.2
  obtain ⟨X, Y, hX, hY, hcol, hrow, hw, hh⟩ := rect_of_corners h₁ h₂
  rw [Int.toNat_natCast] at hw hh
  have hiff : ∀ t, Iconed g icon x y t ↔ Rect X Y icon.width icon.height t := by
    rintro ⟨j, i, c⟩
    unfold Iconed Strip Rect
    rw [hX, hY] at h₁ h₂ ⊢
    dsimp only
    constructor
    · rintro ⟨-, -, hi, hj, hc⟩
      omega
    · rintro ⟨hj, hj', hi, hi', hc⟩
      exact ⟨hone, ⟨h₁, h₂⟩, by omega, by omega, hc⟩
  rw [hX, hY, pointTo_eq hv hcol hrow, ret_bind]
  refine (text_blend_edits hv rfl hw hh (him hone)).mono fun _ b' hE => ?_
  refine hE.reindex id (fun t => (hiff t).mp) (fun t ht => ⟨t, (hiff t).mpr ht, rfl⟩) (fun _ _ => rfl) ?_
  rintro ⟨j, i, c⟩ -
  have hrow : ((j : Int) - Y).toNat = j - Y := Int.toNat_sub ..
  have hcol : ((i : Int) - X).toNat = i - X := Int.toNat_sub ..
  show mix (coverage g (iconTexel g icon x y (j, i, c))) (color g c) =
    mix (coverage g (icon.data.byte (0 + (j - Y) * icon.row_bytes + (i - X)))) (color g c)
  rw [iconTexel, hX, hY, hrow, hcol, Nat.zero_add]

/-! ## `gr_blit` -/

/-- `gr_blit` goes on to copy: the formats agree, and two corners of the destination are on the screen. -/
def Accepted (g : Globals) (source : GRSurface) (w h dx dy : Int) : Prop :=
  g.gr_draw.pixel_bytes = source.pixel_bytes ∧
  ¬ outside g (dx + g.overscan_offset_x) (dy + g.overscan_offset_y) ∧
  ¬ outside g (dx + g.overscan_offset_x + w - 1) (dy + g.overscan_offset_y + h - 1)

/-- The first row that is read does not begin before the source, nor does the last end after it. -/
def Readable (source : GRSurface) (sx sy w h : Int) : Prop :=
  0 ≤ w ∧ (w = 0 ∨
    (0 ≤ sy * source.row_bytes + sx * source.pixel_bytes ∧
      (sy + h - 1) * source.row_bytes + sx * source.pixel_bytes + w * source.pixel_bytes ≤ source.data.size))

/-- The `int`s that `gr_blit` computes: its destination, and, where it goes on to copy, the beginning of
    what it reads and, for every row, how much it copies. -/
def BlitFits (g : Globals) (source : GRSurface) (sx sy w h dx dy : Int) : Prop :=
  OffsetFits g dx dy ∧ CornerFits g (dx + g.overscan_offset_x) (dy + g.overscan_offset_y) w h ∧
    (Accepted g source w h dx dy → (InInt (sy * source.row_bytes) ∧ InInt (sx * source.pixel_bytes)) ∧
      (0 < h → InInt (w * source.pixel_bytes)))

/-- The pixels a blit covers, all four bytes of each. -/
def Blitted (g : Globals) (source : GRSurface) (w h dx dy : Int) (t : Nat × Nat × Nat) : Prop :=
  Accepted g source w h dx dy ∧
  (dx + g.overscan_offset_x ≤ t.2.1 ∧ t.2.1 < dx + g.overscan_offset_x + w ∧
    dy + g.overscan_offset_y ≤ t.1 ∧ t.1 < dy + g.overscan_offset_y + h) ∧ t.2.2 < 4

/-- The byte of the source that a blit copies to a byte of the screen. -/
def blitTexel (g : Globals) (source : GRSurface) (sx sy dx dy : Int) (t : Nat × Nat × Nat) : Byte :=
  source.data.byte ((sy + (t.1 - (dy + g.overscan_offset_y))) * source.row_bytes +
    (sx + (t.2.1 - (dx + g.overscan_offset_x))) * source.pixel_bytes + t.2.2).toNat

theorem memcpy_edits {source : Block} {src_p : Int} {dst_p n : Nat} (hsrc : 0 ≤ src_p)
    (hread : src_p + n ≤ source.size) (hwrite : dst_p + n ≤ b.size) :
    Ensures A (memcpy source src_p dst_p n) (fun _ b' => Edits (fun k => k < n) (fun k => dst_p + k)
      (fun k _ => source.byte (src_p.toNat + k)) b b') b := by
  refine ensures_bind (ensures_read (ensures_bind (ensures_require ?_ (ensures_write ?_))))
  · exact ⟨Int.natCast_nonneg n, .inr ⟨hsrc, hread, by omega⟩⟩
  · refine ⟨rfl, fun k hk => ?_, fun a ha => if_neg fun h => ha (a - dst_p) (by omega) (by omega)⟩
    refine (if_pos (by omega)).trans ?_
    rw [Nat.add_sub_cancel_left]

theorem pointer_rows (s : Nat) (p : Int) (k : Nat) : pointer (· + (s : Int)) p k = p + k * s := by
  induction k generalizing p with
  | zero =>
    show p = p + (0 : Nat) * s
    omega
  | succ k ih =>
    refine (ih (p + s)).trans ?_
    rw [Int.natCast_add, Int.add_mul]
    omega

/-- The pointers of a row that is copied. -/
theorem pointer_blit (rb rb' : Nat) (src_p : Int) (dst_p k : Nat) :
    pointer (fun p : Int × Nat => (p.1 + (rb : Int), p.2 + rb')) (src_p, dst_p) k =
      (src_p + k * rb, dst_p + k * rb') := by
  rw [pointer_prod (· + (rb : Int)) (· + rb'), pointer_rows, pointer_add]

/-- **One row** of a blit. -/
theorem blitRow_edits {source : GRSurface} {sx sy : Int} {W H X Y j : Nat} (hv : g.gr_draw.Valid b.size)
    (hfour : source.pixel_bytes = 4) (hread : Readable source sx sy W H) (hj : j < H)
    (hwide : X + W ≤ g.gr_draw.width) (hhigh : Y + H ≤ g.gr_draw.height) :
    Ensures A (memcpy source.data (sy * source.row_bytes + sx * (4 : Nat) + j * source.row_bytes)
      (g.gr_draw.byteAt (Y + j, X, 0)) (W * 4 : Nat)) (fun _ b' =>
        Edits (fun k => k < W * 4) (fun k => g.gr_draw.byteAt (Y + j, X, 0) + k) (fun k _ => source.data.byte
          ((sy * source.row_bytes + sx * (4 : Nat) + j * source.row_bytes).toNat + k)) b b') b := by
  obtain ⟨-, hrows⟩ := hread
  by_cases hnone : W = 0
  · subst hnone
    refine ensures_bind (ensures_read (ensures_bind (ensures_require ⟨Int.le_refl 0, .inl rfl⟩ (ensures_write ?_))))
    refine ⟨rfl, fun k hk => absurd hk (Nat.not_lt_zero k), fun a _ => if_neg fun h => ?_⟩
    omega
  obtain ⟨hfirst, hlast⟩ := hrows.resolve_left (Int.natCast_ne_zero.mpr hnone)
  rw [hfour] at hfirst hlast
  -- between the first row, which is not too early, and the last, which is not too late
  have hj' : (j : Int) * source.row_bytes ≤ ((H : Int) - 1) * source.row_bytes :=
    Int.mul_le_mul_of_nonneg_right (by omega) (Int.natCast_nonneg _)
  have hj₀ : 0 ≤ (j : Int) * source.row_bytes := Int.mul_nonneg (Int.natCast_nonneg _) (Int.natCast_nonneg _)
  have hsum : (sy + H - 1) * (source.row_bytes : Int) =
      sy * source.row_bytes + ((H : Int) - 1) * source.row_bytes := by
    rw [← Int.add_mul]
    congr 1
    omega
  have hlt := byteAt_lt hv (show X + (W - 1) < g.gr_draw.width by omega)
    (show Y + j < g.gr_draw.height by omega)
  have hend : g.gr_draw.byteAt (Y + j, X + (W - 1), 0) = g.gr_draw.byteAt (Y + j, X, 0) + (W - 1) * 4 := by
    show 0 + (Y + j) * g.gr_draw.row_bytes + (X + (W - 1)) * 4 + 0 =
      0 + (Y + j) * g.gr_draw.row_bytes + X * 4 + 0 + (W - 1) * 4
    omega
  exact memcpy_edits (by omega) (by omega) (by omega)

/-- Where a byte of the screen comes from: its row of the source, and its place in the row. -/
theorem blitTexel_eq {source : GRSurface} {sx sy dx dy : Int} {X Y j i c : Nat} (hfour : source.pixel_bytes = 4)
    (hX : dx + g.overscan_offset_x = X) (hY : dy + g.overscan_offset_y = Y)
    (hfirst : 0 ≤ sy * (source.row_bytes : Int) + sx * (4 : Nat)) (hi : X ≤ i) (hj : Y ≤ j) :
    blitTexel g source sx sy dx dy (j, i, c) = source.data.byte
      ((sy * source.row_bytes + sx * (4 : Nat) + (j - Y : Nat) * source.row_bytes).toNat + ((i - X) * 4 + c)) := by
  rw [blitTexel, hX, hY, hfour]
  dsimp only
  congr 1
  have hj₀ : 0 ≤ ((j - Y : Nat) : Int) * source.row_bytes :=
    Int.mul_nonneg (Int.natCast_nonneg _) (Int.natCast_nonneg _)
  have hcast : (j : Int) - Y = ((j - Y : Nat) : Int) := by omega
  rw [Int.add_mul, hcast]
  omega

/-- **Rows make a rectangle**: four bytes of a row are a pixel. -/
theorem pixels_of_rows {d : Geometry} {X Y W H : Nat} {e : Nat → Nat → Byte → Byte} {b' : Block}
    (hE : Edits (fun u : Nat × Nat => u.1 < H ∧ u.2 < W * 4) (fun u => d.byteAt (Y + u.1, X, 0) + u.2)
      (fun u => e u.1 u.2) b b') :
    Edits (fun t : Nat × Nat × Nat => (X ≤ t.2.1 ∧ t.2.1 < X + W ∧ Y ≤ t.1 ∧ t.1 < Y + H) ∧ t.2.2 < 4) d.byteAt
      (fun t => e (t.1 - Y) ((t.2.1 - X) * 4 + t.2.2)) b b' := by
  refine hE.reindex (fun t => (t.1 - Y, (t.2.1 - X) * 4 + t.2.2)) ?_ ?_ ?_ fun _ _ => rfl
  · rintro ⟨j, i, c⟩ ⟨⟨hi, hi', hj, hj'⟩, hc⟩
    dsimp only at hi hi' hj hj' hc
    refine ⟨?_, ?_⟩
    · show j - Y < H
      omega
    · show (i - X) * 4 + c < W * 4
      omega
  · rintro ⟨j, k⟩ ⟨hj, hk⟩
    dsimp only at hj hk
    refine ⟨(Y + j, X + k / 4, k % 4), ⟨?_, Nat.mod_lt k (by decide)⟩, Prod.ext ?_ ?_⟩
    · dsimp only
      omega
    · exact Nat.add_sub_cancel_left ..
    · show (X + k / 4 - X) * 4 + k % 4 = k
      omega
  · rintro ⟨j, i, c⟩ ⟨⟨hi, -, hj, -⟩, -⟩
    dsimp only at hi hj
    show 0 + j * d.row_bytes + i * 4 + c = 0 + (Y + (j - Y)) * d.row_bytes + X * 4 + 0 + ((i - X) * 4 + c)
    rw [show Y + (j - Y) = j by omega]
    omega

/-- **All rows** of a blit. -/
theorem blitRows_edits {source : GRSurface} {sx sy : Int} {W H X Y : Nat} (hv : g.gr_draw.Valid b.size)
    (hfour : source.pixel_bytes = 4) (hlength : InInt (W * 4 : Nat)) (hread : Readable source sx sy W H)
    (hwide : X + W ≤ g.gr_draw.width) (hhigh : Y + H ≤ g.gr_draw.height) :
    Ensures A (walk (fun p : Int × Nat => (p.1 + source.row_bytes, p.2 + g.gr_draw.row_bytes))
        (fun p => signed (W * 4 : Nat) >>= memcpy source.data p.1 p.2) H
        (sy * source.row_bytes + sx * (4 : Nat), g.gr_draw.byteAt (Y, X, 0))) (fun _ b' =>
      Edits (fun t : Nat × Nat × Nat => (X ≤ t.2.1 ∧ t.2.1 < X + W ∧ Y ≤ t.1 ∧ t.1 < Y + H) ∧ t.2.2 < 4)
        g.gr_draw.byteAt (fun t _ => source.data.byte ((sy * source.row_bytes + sx * (4 : Nat) +
          (t.1 - Y : Nat) * source.row_bytes).toNat + ((t.2.1 - X) * 4 + t.2.2))) b b') b := by
  have hrow := hv.row
  refine (walk_edits (P := fun _ k => k < W * 4) (A := fun j k => g.gr_draw.byteAt (Y + j, X, 0) + k)
    (e := fun j k _ => source.data.byte ((sy * source.row_bytes + sx * (4 : Nat) + j * source.row_bytes).toNat + k))
    rfl ?_ ?_).mono ?_
  · intro j hj b' hb
    rw [pointer_blit]
    have hdst : g.gr_draw.byteAt (Y, X, 0) + j * g.gr_draw.row_bytes = g.gr_draw.byteAt (Y + j, X, 0) := by
      show 0 + Y * g.gr_draw.row_bytes + X * 4 + 0 + j * g.gr_draw.row_bytes =
        0 + (Y + j) * g.gr_draw.row_bytes + X * 4 + 0
      rw [Nat.add_mul]
      omega
    rw [hdst, signed_of_inInt hlength, ret_bind]
    exact blitRow_edits (hb ▸ hv) hfour hread hj hwide hhigh
  · rintro j k hjk - c d hc -
    show 0 + (Y + j) * g.gr_draw.row_bytes + X * 4 + 0 + c ≠ 0 + (Y + k) * g.gr_draw.row_bytes + X * 4 + 0 + d
    have hapart : 0 + (Y + j) * g.gr_draw.row_bytes + (X * 4 + c) ≠ 0 + (Y + k) * g.gr_draw.row_bytes + (X * 4 + d) :=
      row_apart (Nat.add_lt_add_left hjk Y) (show X * 4 + c < g.gr_draw.row_bytes by omega)
    omega
  · exact fun _ b' hE => pixels_of_rows (e := fun j k _ => source.data.byte
      ((sy * source.row_bytes + sx * (4 : Nat) + j * source.row_bytes).toNat + k)) hE

/-- **`gr_blit`** copies its rectangle, provided that the source has it. -/
theorem gr_blit_copies {source : GRSurface} {sx sy w h dx dy : Int} (hv : g.gr_draw.Valid b.size)
    (hf : g.gr_draw.pixel_bytes = source.pixel_bytes → BlitFits g source sx sy w h dx dy)
    (hread : Accepted g source w h dx dy → 0 < h → Readable source sx sy w h) :
    Ensures A (gr_blit g (some source) sx sy w h dx dy) (fun _ b' =>
      Edits (Blitted g source w h dx dy) g.gr_draw.byteAt
        (fun t _ => blitTexel g source sx sy dx dy t) b b') b := by
  rw [gr_blit]
  refine ensures_ite (fun hformat => ensures_pure (edits_none fun t ht => hformat ht.1.1)) fun hformat => ?_
  have hsame : g.gr_draw.pixel_bytes = source.pixel_bytes := not_not.mp hformat
  obtain ⟨⟨hdx, hdy⟩, hcorner, hrest⟩ := hf hsame
  refine ensures_bind (ensures_signed hdx (ensures_bind (ensures_signed hdy (ensures_misses hcorner
    (fun hout => ensures_pure (edits_none fun t ht => ?_)) fun h₁ h₂ => ?_))))
  · exact hout.elim ht.1.2.1 ht.1.2.2
  have hacc : Accepted g source w h dx dy := ⟨hsame, h₁, h₂⟩
  obtain ⟨⟨hfrom, hskip⟩, hbytes⟩ := hrest hacc
  obtain ⟨X, Y, hX, hY, hcol, hline, hwide, hhigh⟩ := rect_of_corners h₁ h₂
  refine ensures_bind (ensures_signed hfrom (ensures_bind (ensures_signed hskip ?_)))
  rw [hX, hY, pointTo_eq hv hcol hline, ret_bind]
  -- nothing is copied unless there are both rows and columns
  by_cases hh : 0 < h
  case neg =>
    rw [show h.toNat = 0 by omega]
    refine ensures_pure (edits_none fun t ht => ?_)
    have := ht.2.1
    omega
  obtain ⟨hw, hrows⟩ := hread hacc hh
  have hfour : source.pixel_bytes = 4 := hsame ▸ hv.four
  obtain ⟨W, rfl⟩ := Int.eq_ofNat_of_zero_le hw
  obtain ⟨H, rfl⟩ := Int.eq_ofNat_of_zero_le (Int.le_of_lt hh)
  rw [Int.toNat_natCast] at hwide hhigh ⊢
  have hcast : (W : Int) * ((4 : Nat) : Int) = (W * 4 : Nat) := (Int.natCast_mul W 4).symm
  have hlength : InInt (W * 4 : Nat) := by
    rw [← hcast, ← hfour]
    exact hbytes hh
  rw [address_eq hv, hfour, hcast]
  refine (blitRows_edits hv hfour hlength ⟨hw, hrows⟩ hwide hhigh).mono fun _ b' hE => ?_
  refine hE.reindex id ?_ ?_ (fun _ _ => rfl) ?_
  · rintro ⟨j, i, c⟩ ⟨-, hin, hc⟩
    dsimp only at hin
    refine ⟨?_, hc⟩
    dsimp only [id]
    omega
  · rintro ⟨j, i, c⟩ ⟨hin, hc⟩
    refine ⟨(j, i, c), ⟨hacc, ?_, hc⟩, rfl⟩
    dsimp only at hin ⊢
    omega
  · rintro ⟨j, i, c⟩ ⟨-, ⟨hi, hi', hj, hj'⟩, hc⟩
    dsimp only at hi hi' hj hj' hc
    have hnone : W ≠ 0 := by omega
    obtain ⟨hfirst, -⟩ := hrows.resolve_left (Int.natCast_ne_zero.mpr hnone)
    rw [hfour] at hfirst
    exact funext fun _ => blitTexel_eq hfour hX hY hfirst (by omega) (by omega)

/-- A loop that is defined is so in every round, where a round that is defined returns. -/
theorem walk_defined {π : Type} {stride : π → π} {body : π → Prog Block Unit} {n k size : Nat} {p : π}
    (hk : k < n) (hsize : b.size = size)
    (hbody : ∀ q b, b.size = size → body q b = .undefined ∨ ∃ b', body q b = .returns ((), b') ∧ b'.size = size)
    (hdef : walk stride body n p b ≠ .undefined) :
    ∃ b', b'.size = size ∧ body (pointer stride p k) b' ≠ .undefined := by
  induction n generalizing b p k with
  | zero => exact absurd hk (Nat.not_lt_zero k)
  | succ n ih =>
    have hfirst : body p b ≠ .undefined := defined_of_bind hdef
    obtain ⟨b', hp, hb'⟩ := (hbody p b hsize).resolve_left hfirst
    cases k with
    | zero => exact ⟨b, hsize, hfirst⟩
    | succ k =>
      replace hdef : andThen (body p) (fun _ => walk stride body n (stride p)) b ≠ .undefined := hdef
      rw [andThen, hp] at hdef
      exact ih (k := k) (p := stride p) (Nat.lt_of_succ_lt_succ hk) hb' hdef

/-- What a `memcpy` that is defined has read lies in its source. -/
theorem memcpy_defined {source : Block} {src_p n : Int} {dst_p : Nat}
    (h : memcpy source src_p dst_p n b ≠ .undefined) :
    0 ≤ n ∧ (n = 0 ∨ (0 ≤ src_p ∧ src_p + n ≤ source.size ∧ dst_p + n ≤ b.size)) := by
  by_contra hbad
  refine h ?_
  show andThen (require _) _ b = _
  rw [andThen, require, if_neg hbad]
  rfl

theorem copyRow_outcome (source : Block) (src_p : Int) (dst_p : Nat) (n : Int) (b : Block) :
    (signed n >>= memcpy source src_p dst_p) b = .undefined ∨
      ∃ b', (signed n >>= memcpy source src_p dst_p) b = .returns ((), b') ∧ b'.size = b.size := by
  by_cases hdef : (signed n >>= memcpy source src_p dst_p) b = .undefined
  · exact .inl hdef
  obtain ⟨hn, hcopy⟩ := signed_defined hdef
  rw [signed_of_inInt hn, ret_bind]
  refine .inr ⟨{ b with byte := fun a =>
    if dst_p ≤ a ∧ a < dst_p + n then source.byte (src_p.toNat + (a - dst_p)) else b.byte a }, ?_, rfl⟩
  show andThen (require _) _ b = _
  rw [andThen, require, if_pos (memcpy_defined hcopy)]
  rfl

/-- **What `gr_blit` does not check.**  Where the formats agree it is defined exactly if no `int` that it
    computes overflows, and a blit that it accepts, of any rows at all, has these rows in its source. -/
theorem gr_blit_defined_iff {source : GRSurface} {sx sy w h dx dy : Int} (hv : g.gr_draw.Valid b.size) :
    gr_blit g (some source) sx sy w h dx dy b ≠ .undefined ↔
      (g.gr_draw.pixel_bytes = source.pixel_bytes → BlitFits g source sx sy w h dx dy) ∧
        (Accepted g source w h dx dy → 0 < h → Readable source sx sy w h) := by
  constructor
  · intro hdef
    by_cases hformat : g.gr_draw.pixel_bytes = source.pixel_bytes
    case neg => exact ⟨fun h => absurd h hformat, fun hacc => absurd hacc.1 hformat⟩
    rw [gr_blit, if_neg (not_not.mpr hformat)] at hdef
    obtain ⟨hdx, hdef⟩ := signed_defined hdef
    obtain ⟨hdy, hdef⟩ := signed_defined hdef
    obtain ⟨hcorner, hdef⟩ := misses_defined hdef
    by_cases hacc : Accepted g source w h dx dy
    case neg => exact ⟨fun _ => ⟨⟨hdx, hdy⟩, hcorner, fun h => absurd h hacc⟩, fun h => absurd h hacc⟩
    rw [decide_eq_false (not_or.mpr hacc.2)] at hdef
    obtain ⟨hfrom, hdef⟩ := signed_defined hdef
    obtain ⟨hskip, hdef⟩ := signed_defined hdef
    obtain ⟨X, Y, hX, hY, hcol, hline, -⟩ := rect_of_corners hacc.2.1 hacc.2.2
    rw [hX, hY, pointTo_eq hv hcol hline] at hdef
    -- every row has been copied
    have hrows : ∀ k < h.toNat, InInt (w * source.pixel_bytes) ∧ 0 ≤ w * (source.pixel_bytes : Int) ∧
        (w * (source.pixel_bytes : Int) = 0 ∨
          (0 ≤ sy * source.row_bytes + sx * source.pixel_bytes + k * source.row_bytes ∧
            sy * source.row_bytes + sx * source.pixel_bytes + k * source.row_bytes + w * source.pixel_bytes ≤
              source.data.size)) := by
      intro k hk
      obtain ⟨b', -, hround⟩ := walk_defined hk rfl
        (fun q b' hb' => (copyRow_outcome source.data q.1 q.2 _ b').imp_right
          fun ⟨b₁, hp, hs⟩ => ⟨b₁, hp, hs.trans hb'⟩) hdef
      rw [pointer_blit] at hround
      obtain ⟨hbytes, hcopy⟩ := signed_defined hround
      obtain ⟨hpos, hread⟩ := memcpy_defined hcopy
      exact ⟨hbytes, hpos, hread.imp_right fun h => ⟨h.1, h.2.1⟩⟩
    refine ⟨fun _ => ⟨⟨hdx, hdy⟩, hcorner, fun _ => ⟨⟨hfrom, hskip⟩, fun hh => (hrows 0 (by omega)).1⟩⟩,
      fun _ hh => ?_⟩
    have hfour : source.pixel_bytes = 4 := hformat ▸ hv.four
    -- the first row does not begin too early, the last does not end too late
    obtain ⟨-, hpos, hfirst⟩ := hrows 0 (by omega)
    obtain ⟨-, -, hlast⟩ := hrows (h.toNat - 1) (by omega)
    have hend : sy * (source.row_bytes : Int) + ((h.toNat - 1 : Nat) : Int) * source.row_bytes =
        (sy + h - 1) * source.row_bytes := by
      rw [← Int.add_mul]
      congr 1
      omega
    rw [hfour] at hpos hfirst hlast
    rw [show ((0 : Nat) : Int) * source.row_bytes = 0 by omega] at hfirst
    rw [Readable, hfour]
    omega
  · intro ⟨hf, hread⟩
    exact (gr_blit_copies (A := False) hv hf hread).not_undefined

/-- A screen of two rows of two pixels. -/
def blitScreen : Globals where
  gr_font := ⟨none, 0, 0⟩
  overscan_offset_x := 0
  overscan_offset_y := 0
  gr_current_r := 255
  gr_current_g := 255
  gr_current_b := 255
  gr_current_a := 255
  gr_draw := ⟨2, 2, 8, 4⟩

/-- A picture as large as the screen. -/
def blitSource : GRSurface where
  width := 2
  height := 2
  row_bytes := 8
  pixel_bytes := 4
  data := ⟨16, fun _ => 0⟩

/-- Two rows from the second row of a picture of two. -/
theorem gr_blit_defined_iff_past_end :
    gr_blit blitScreen (some blitSource) 0 1 2 2 0 0 ⟨16, fun _ => 255⟩ = .undefined := by
  by_contra hdef
  have hv : blitScreen.gr_draw.Valid 16 := ⟨rfl, by decide, by decide, by decide, by decide⟩
  have hacc : Accepted blitScreen blitSource 2 2 0 0 := ⟨rfl, by decide, by decide⟩
  obtain ⟨-, hnone | ⟨-, hlast⟩⟩ := ((gr_blit_defined_iff (b := ⟨16, fun _ => 255⟩) hv).mp hdef).2 hacc (by decide)
  · exact absurd hnone (by decide)
  · exact absurd hlast (by decide)

end Codina.Recovery.Drawing
