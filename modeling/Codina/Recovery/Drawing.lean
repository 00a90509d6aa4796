/-
  The drawing functions of the recovery's minui: `gr_fill`, `gr_text`, `gr_texticon`, `gr_blit`,
  `gr_clear`.

  All of them walk pointers through the bytes of the surface that is drawn on, four bytes a pixel, and
  are told where to begin by coordinates of which only two opposite corners are checked.  What each
  leaves is said pixel by pixel: the three colour bytes of the pixels it covers have been mixed with the
  colour, and no other byte has changed.  The branches for an opaque and a transparent pixel come to
  the same mix.

  Coordinates are `int`s, and a sum or a product of them that leaves the range is undefined; the bytes of
  a pointer are added one after the other, and not checked until something is read or written.  The bytes
  drawn on are the state; other surfaces (fonts, icons, the source of a blit) are only read, and are other
  memory.
-/
import Codina.Lib.Ints
import Codina.Lib.Raster

namespace Codina.Recovery.Drawing

open Codina.Faults Codina.Faults.Prog Codina.Ints Codina.Raster

/-! ## The program -/

structure Geometry where
  width : Nat
  height : Nat
  row_bytes : Nat
  pixel_bytes : Nat

structure GRSurface extends Geometry where
  data : Block

structure GRFont where
  texture : Option GRSurface
  cwidth : Nat
  cheight : Nat

/-- The globals.  Of the surface drawn on, its shape; its bytes are the state. -/
structure Globals where
  gr_font : GRFont
  overscan_offset_x : Int
  overscan_offset_y : Int
  gr_current_r : Byte
  gr_current_g : Byte
  gr_current_b : Byte
  gr_current_a : Byte
  gr_draw : Geometry

variable (g : Globals)

def outside (x y : Int) : Prop := x < 0 ∨ g.gr_draw.width ≤ x ∨ y < 0 ∨ g.gr_draw.height ≤ y

instance (x y : Int) : Decidable (outside g x y) := inferInstanceAs (Decidable (_ ∨ _ ∨ _ ∨ _))

/-- `outside(x, y) || outside(x + w - 1, y + h - 1)`. -/
def misses (x y w h : Int) : Prog Block Bool :=
  if outside g x y then
    return true
  else do
    let x ← signed (x + w)
    let x ← signed (x - 1)
    let y ← signed (y + h)
    let y ← signed (y - 1)
    return decide (outside g x y)

/-- The colour bytes of a pixel, in their order. -/
def color : Nat → Byte
  | 0 => g.gr_current_r
  | 1 => g.gr_current_g
  | _ => g.gr_current_b

/-- `(old * (255 - a) + c * a) / 255`. -/
def mix (a : Nat) (c old : Byte) : Byte := BitVec.ofNat 8 ((old.toNat * (255 - a) + c.toNat * a) / 255)

/-- Three bytes changed, the fourth passed over. -/
def pixel (f : Nat → Byte → Byte) (px : Nat) : Prog Block Unit := do
  poke px (f 0)
  poke (px + 1) (f 1)
  poke (px + 2) (f 2)

def putPixel (px : Nat) : Prog Block Unit := pixel (fun c _ => color g c) px

def mixPixel (a px : Nat) : Prog Block Unit := pixel (fun c => mix a (color g c)) px

/-- How much of a pixel the text covers, by the byte of the texture. -/
def coverage (t : Byte) : Nat :=
  if g.gr_current_a.toNat < 255 then t.toNat * g.gr_current_a.toNat / 255 else t.toNat

/-- The body of the inner loop of `text_blend`. -/
def blendPixel (texture : Block) (sx px : Nat) : Prog Block Unit := do
  require (sx < texture.size)
  let a := coverage g (texture.byte sx)
  if a = 255 then putPixel g px
  else if 0 < a then mixPixel g a px
  else return ()

def text_blend (texture : Block) (src_p src_row_bytes dst_p dst_row_bytes width height : Nat) :
    Prog Block Unit :=
  walk (fun p : Nat × Nat => (p.1 + src_row_bytes, p.2 + dst_row_bytes))
    (fun row => walk (fun p : Nat × Nat => (p.1 + 1, p.2 + 4)) (fun p => blendPixel g texture p.1 p.2) width row)
    height (src_p, dst_p)

/-- `y * gr_draw->row_bytes + x * gr_draw->pixel_bytes`, behind `gr_draw->data`. -/
def pointTo (x y : Int) : Prog Block Nat := do
  let row ← signed (y * g.gr_draw.row_bytes)
  let column ← signed (x * g.gr_draw.pixel_bytes)
  return (row + column).toNat

/-- The column of the texture where the image of a character begins, in characters; what has none is shown
    as `?`. -/
def letter (ch : Byte) : Nat := (if ch.toNat < 32 ∨ 126 < ch.toNat then 63 else ch.toNat) - 32

/-- Where the image of a character begins, behind `font->texture->data`. -/
def image (texture : GRSurface) (bold : Prop) [Decidable bold] (ch : Byte) : Prog Block Nat := do
  let column ← signed (letter ch * g.gr_font.cwidth)
  let row ← if bold then signed (g.gr_font.cheight * texture.row_bytes) else pure 0
  return (column + row).toNat

/-- The loop of `gr_text`. -/
def textLoop (texture : GRSurface) (bold : Prop) [Decidable bold] (y : Int) : List Byte → Int → Prog Block Unit
  | [], _ => return ()
  | ch :: s, x => do
    let out ← misses g x y g.gr_font.cwidth g.gr_font.cheight
    if out then
      return ()
    else do
      let src_p ← image g texture bold ch
      let dst_p ← pointTo g x y
      text_blend g texture.data src_p texture.row_bytes dst_p g.gr_draw.row_bytes g.gr_font.cwidth
        g.gr_font.cheight
      let x ← signed (x + g.gr_font.cwidth)
      textLoop texture bold y s x

def gr_text (x y : Int) (s : List Byte) (bold : Bool) : Prog Block Unit :=
  match g.gr_font.texture with
  | none => return ()
  | some texture =>
    if g.gr_current_a = 0 then
      return ()
    else do
      let x ← signed (x + g.overscan_offset_x)
      let y ← signed (y + g.overscan_offset_y)
      textLoop g texture (bold ∧ texture.height ≠ g.gr_font.cheight) y s x

def gr_texticon (x y : Int) (icon : Option GRSurface) : Prog Block Unit :=
  match icon with
  | none => return ()
  | some icon =>
    if icon.pixel_bytes ≠ 1 then
      return ()
    else do
      let x ← signed (x + g.overscan_offset_x)
      let y ← signed (y + g.overscan_offset_y)
      let out ← misses g x y icon.width icon.height
      if out then
        return ()
      else do
        let dst_p ← pointTo g x y
        text_blend g icon.data 0 icon.row_bytes dst_p g.gr_draw.row_bytes icon.width icon.height

/-- `memset(gr_draw->data, c, n)`. -/
def memset (c : Byte) (n : Nat) : Prog Block Unit := do
  let b ← read
  require (n ≤ b.size)
  write { b with byte := fun a => if a < n then c else b.byte a }

/-- `swap` where `RECOVERY_ABGR` or `RECOVERY_BGRA` is defined. -/
def gr_color (swap : Bool) (red green blue a : Byte) : Globals :=
  if swap then
    { g with gr_current_r := blue, gr_current_g := green, gr_current_b := red, gr_current_a := a }
  else
    { g with gr_current_r := red, gr_current_g := green, gr_current_b := blue, gr_current_a := a }

/-- `gr_draw->row_bytes - gr_draw->width * gr_draw->pixel_bytes`, which is computed after each row. -/
def skip : Prog Block Int := do
  let bytes ← signed (g.gr_draw.width * g.gr_draw.pixel_bytes)
  signed (g.gr_draw.row_bytes - bytes)

def gr_clear : Prog Block Unit :=
  if g.gr_current_r = g.gr_current_g ∧ g.gr_current_r = g.gr_current_b then do
    let n ← signed (g.gr_draw.height * g.gr_draw.row_bytes)
    memset g.gr_current_r n.toNat
  else
    -- after a row, `px` has passed four bytes for every pixel
    walk (· + (g.gr_draw.width * 4 + g.gr_draw.row_bytes - g.gr_draw.width * g.gr_draw.pixel_bytes))
      (fun px => do
        walk (· + 4) (putPixel g) g.gr_draw.width px
        let _ ← skip g
        return ())
      g.gr_draw.height 0

def gr_fill (x1 y1 x2 y2 : Int) : Prog Block Unit := do
  let x1 ← signed (x1 + g.overscan_offset_x)
  let y1 ← signed (y1 + g.overscan_offset_y)
  let x2 ← signed (x2 + g.overscan_offset_x)
  let y2 ← signed (y2 + g.overscan_offset_y)
  if outside g x1 y1 then
    return ()
  else do
    let right ← signed (x2 - 1)
    let bottom ← signed (y2 - 1)
    if outside g right bottom then
      return ()
    else do
      let p ← pointTo g x1 y1
      if g.gr_current_a = 255 then
        walk (· + g.gr_draw.row_bytes) (walk (· + 4) (putPixel g) (x2 - x1).toNat) (y2 - y1).toNat p
      else if 0 < g.gr_current_a.toNat then
        walk (· + g.gr_draw.row_bytes) (walk (· + 4) (mixPixel g g.gr_current_a.toNat) (x2 - x1).toNat)
          (y2 - y1).toNat p
      else
        return ()

/-- `memcpy(dst_p, src_p, n)`.  A negative length is a huge one. -/
def memcpy (source : Block) (src_p : Int) (dst_p : Nat) (n : Int) : Prog Block Unit := do
  let b ← read
  require (0 ≤ n ∧ (n = 0 ∨ (0 ≤ src_p ∧ src_p + n ≤ source.size ∧ dst_p + n ≤ b.size)))
  write { b with byte := fun a =>
    if dst_p ≤ a ∧ a < dst_p + n then source.byte (src_p.toNat + (a - dst_p)) else b.byte a }

def gr_blit (source : Option GRSurface) (sx sy w h dx dy : Int) : Prog Block Unit :=
  match source with
  | none => return ()
  | some source =>
    if g.gr_draw.pixel_bytes ≠ source.pixel_bytes then
      return ()
    else do
      let dx ← signed (dx + g.overscan_offset_x)
      let dy ← signed (dy + g.overscan_offset_y)
      let out ← misses g dx dy w h
      if out then
        return ()
      else do
        let row ← signed (sy * source.row_bytes)
        let column ← signed (sx * source.pixel_bytes)
        let dst_p ← pointTo g dx dy
        walk (fun p : Int × Nat => (p.1 + source.row_bytes, p.2 + g.gr_draw.row_bytes))
          (fun p => do
            let n ← signed (w * source.pixel_bytes)
            memcpy source.data p.1 p.2 n)
          h.toNat (row + column, dst_p)

/-! ## Mixing -/

variable {g}

theorem mix_full (c old : Byte) : mix 255 c old = c := by
  apply BitVec.eq_of_toNat_eq
  rw [mix, BitVec.toNat_ofNat]
  have := c.isLt
  omega

theorem mix_none (c old : Byte) : mix 0 c old = old := by
  apply BitVec.eq_of_toNat_eq
  rw [mix, BitVec.toNat_ofNat]
  have := old.isLt
  omega

/-- Mixing never overflows a byte. -/
theorem mix_toNat {a : Nat} (ha : a ≤ 255) (c old : Byte) :
    (mix a c old).toNat = (old.toNat * (255 - a) + c.toNat * a) / 255 := by
  have hc : c.toNat ≤ 255 := Nat.le_of_lt_succ c.isLt
  have ho : old.toNat ≤ 255 := Nat.le_of_lt_succ old.isLt
  have h₁ := Nat.mul_le_mul_right a hc
  have h₂ := Nat.mul_le_mul_right (255 - a) ho
  rw [mix, BitVec.toNat_ofNat]
  exact Nat.mod_eq_of_lt (by omega)

theorem pixel_edits {b : Block} {A : Prop} (f : Nat → Byte → Byte) {px : Nat} (hpx : px + 2 < b.size) :
    Ensures A (pixel f px) (fun _ b' => Edits (fun c => c < 3) (fun c => px + c) f b b') b := by
  refine (poke_edits (by omega)).bind fun _ b₁ h₀ => ?_
  refine (poke_edits (by rw [h₀.size]; omega)).bind fun _ b₂ h₁ => ?_
  refine (poke_edits (by rw [h₁.size, h₀.size]; exact hpx)).mono fun _ b₃ h₂ => ?_
  refine ⟨h₂.size.trans (h₁.size.trans h₀.size), fun c hc => ?_, fun a ha => ?_⟩
  · match c, hc with
    | 0, _ =>
      rw [h₂.off _ (fun _ _ => by omega), h₁.off _ (fun _ _ => by omega)]
      exact h₀.at_ () trivial
    | 1, _ =>
      rw [h₂.off _ (fun _ _ => by omega), h₁.at_ () trivial, h₀.off _ (fun _ _ => by omega)]
    | 2, _ =>
      rw [h₂.at_ () trivial, h₁.off _ (fun _ _ => by omega), h₀.off _ (fun _ _ => by omega)]
  · rw [h₂.off a fun _ _ => ha 2 (by decide), h₁.off a fun _ _ => ha 1 (by decide),
      h₀.off a fun _ _ => ha 0 (by decide)]

theorem putPixel_eq : putPixel g = pixel fun c => mix 255 (color g c) :=
  congrArg pixel (funext fun c => funext fun old => (mix_full (color g c) old).symm)

/-- The three branches of a blended pixel are one mix. -/
theorem blendPixel_edits {b : Block} {A : Prop} {texture : Block} {sx px : Nat} (hsx : sx < texture.size)
    (hpx : px + 2 < b.size) : Ensures A (blendPixel g texture sx px) (fun _ b' =>
      Edits (fun c => c < 3) (fun c => px + c) (fun c => mix (coverage g (texture.byte sx)) (color g c)) b b') b := by
  refine ensures_bind (ensures_require hsx (ensures_ite (fun hfull => ?_) fun _ => ensures_ite (fun _ => ?_)
    fun hnone => ?_))
  · rw [putPixel_eq, hfull]
    exact pixel_edits _ hpx
  · exact pixel_edits _ hpx
  · rw [Nat.eq_zero_of_not_pos hnone]
    exact ensures_pure (edits_self fun c _ => mix_none _ _)

/-! ## Rectangles of the screen -/

/-- The surface drawn on holds its rows, of four bytes a pixel, and the `int`s can count its bytes. -/
structure Geometry.Valid (d : Geometry) (size : Nat) : Prop where
  four : d.pixel_bytes = 4
  row : d.width * 4 ≤ d.row_bytes
  fits : d.height * d.row_bytes ≤ size
  row_int : d.row_bytes < 2147483648
  rows_int : d.height * d.row_bytes < 2147483648

/-- Byte `c` of the pixel in row `y` and column `x`. -/
def Geometry.byteAt (d : Geometry) : Nat × Nat × Nat → Nat := place 0 d.row_bytes 4

/-- The colour bytes of the pixels of a rectangle. -/
def Rect (x y w h : Nat) (t : Nat × Nat × Nat) : Prop :=
  y ≤ t.1 ∧ t.1 < y + h ∧ x ≤ t.2.1 ∧ t.2.1 < x + w ∧ t.2.2 < 3

variable {b : Block} {A : Prop} {size : Nat}

/-- The byte of the surface at a pixel. -/
def address (g : Globals) (x y : Int) : Nat := (y * g.gr_draw.row_bytes + x * g.gr_draw.pixel_bytes).toNat

/-- A pixel of the screen is pointed to without an overflow. -/
theorem pointTo_eq (hv : g.gr_draw.Valid size) {x y : Nat} (hx : x < g.gr_draw.width)
    (hy : y < g.gr_draw.height) : pointTo g x y = pure (address g x y) := by
  have hrow : y * g.gr_draw.row_bytes ≤ g.gr_draw.height * g.gr_draw.row_bytes :=
    Nat.mul_le_mul_right _ (Nat.le_of_lt hy)
  have hints := hv.rows_int
  have hwide := hv.row
  have hlong := hv.row_int
  have hy' : InInt ((y : Int) * g.gr_draw.row_bytes) := by
    rw [← Int.natCast_mul]
    exact ⟨by omega, by omega⟩
  have hx' : InInt ((x : Int) * g.gr_draw.pixel_bytes) := by
    rw [hv.four, ← Int.natCast_mul]
    exact ⟨by omega, by omega⟩
  rw [pointTo, signed_of_inInt hy', signed_of_inInt hx']
  rfl

/-- The `int`s of a point that is moved by the overscan. -/
def OffsetFits (g : Globals) (x y : Int) : Prop :=
  InInt (x + g.overscan_offset_x) ∧ InInt (y + g.overscan_offset_y)

/-- The `int`s from which the second corner of a rectangle is computed, where the first is on the screen. -/
def CornerFits (g : Globals) (x y w h : Int) : Prop :=
  ¬ outside g x y → (InInt (x + w) ∧ InInt (x + w - 1)) ∧ InInt (y + h) ∧ InInt (y + h - 1)

theorem misses_eq {x y w h : Int} (hf : CornerFits g x y w h) :
    misses g x y w h = pure (decide (outside g x y ∨ outside g (x + w - 1) (y + h - 1))) := by
  by_cases hout : outside g x y
  · rw [misses, if_pos hout, decide_eq_true (Or.inl hout)]
  · obtain ⟨⟨hw, hw'⟩, hh, hh'⟩ := hf hout
    have hsame : decide (outside g (x + w - 1) (y + h - 1)) =
        decide (outside g x y ∨ outside g (x + w - 1) (y + h - 1)) :=
      decide_eq_decide.mpr (or_iff_right hout).symm
    rw [misses, if_neg hout, signed_of_inInt hw, ret_bind, signed_of_inInt hw', ret_bind,
      signed_of_inInt hh, ret_bind, signed_of_inInt hh', ret_bind, hsame]

/-- A test of two corners, and what follows it. -/
theorem ensures_misses {α : Type} {x y w h : Int} {p q : Prog Block α} {Q : α → Block → Prop}
    (hf : CornerFits g x y w h)
    (hout : outside g x y ∨ outside g (x + w - 1) (y + h - 1) → Ensures A p Q b)
    (hin : ¬ outside g x y → ¬ outside g (x + w - 1) (y + h - 1) → Ensures A q Q b) :
    Ensures A (misses g x y w h >>= fun out => if out = true then p else q) Q b := by
  rw [misses_eq hf, ret_bind]
  refine ensures_ite (fun h => hout (of_decide_eq_true h)) fun h => ?_
  obtain ⟨h₁, h₂⟩ := not_or.mp (of_decide_eq_false (Bool.eq_false_iff.mpr h))
  exact hin h₁ h₂

/-- A test of two corners that is defined has computed them, and what follows it is defined. -/
theorem misses_defined {α : Type} {x y w h : Int} {f : Bool → Prog Block α}
    (hdef : (misses g x y w h >>= f) b ≠ .undefined) : CornerFits g x y w h ∧
      f (decide (outside g x y ∨ outside g (x + w - 1) (y + h - 1))) b ≠ .undefined := by
  have hf : CornerFits g x y w h := by
    intro hin
    have htest := defined_of_bind hdef
    rw [misses, if_neg hin] at htest
    obtain ⟨hw, htest⟩ := signed_defined htest
    obtain ⟨hw', htest⟩ := signed_defined htest
    obtain ⟨hh, htest⟩ := signed_defined htest
    obtain ⟨hh', -⟩ := signed_defined htest
    exact ⟨⟨hw, hw'⟩, hh, hh'⟩
  rw [misses_eq hf] at hdef
  exact ⟨hf, hdef⟩

theorem address_eq (hv : g.gr_draw.Valid size) (x y : Nat) : address g x y = g.gr_draw.byteAt (y, x, 0) := by
  have hcast : (y : Int) * g.gr_draw.row_bytes + x * g.gr_draw.pixel_bytes =
      ((y * g.gr_draw.row_bytes + x * g.gr_draw.pixel_bytes : Nat) : Int) := by
    rw [Int.natCast_add, Int.natCast_mul, Int.natCast_mul]
  rw [address, hcast, Int.toNat_natCast, hv.four]
  show _ = 0 + y * g.gr_draw.row_bytes + x * 4 + 0
  omega

/-- A pixel of the screen lies in the block. -/
theorem byteAt_lt (hv : g.gr_draw.Valid size) {x y : Nat} (hx : x < g.gr_draw.width)
    (hy : y < g.gr_draw.height) : g.gr_draw.byteAt (y, x, 0) + 3 < size := by
  have hrow : (y + 1) * g.gr_draw.row_bytes ≤ g.gr_draw.height * g.gr_draw.row_bytes :=
    Nat.mul_le_mul_right _ hy
  rw [Nat.add_mul, Nat.one_mul] at hrow
  have := hv.row
  have := hv.fits
  show 0 + y * g.gr_draw.row_bytes + x * 4 + 0 + 3 < size
  omega

/-- **A nest of loops over a rectangle** on the screen. -/
theorem rect_edits {π : Type} {down right : π → π} {body : π → Prog Block Unit} {q : π}
    {e : Nat → Nat → Nat → Byte → Byte} {x y w h : Nat} (hv : g.gr_draw.Valid size) (hsize : b.size = size)
    (hx : x + w ≤ g.gr_draw.width) (hy : y + h ≤ g.gr_draw.height)
    (hbody : ∀ j < h, ∀ i < w, ∀ b px, b.size = size → px + 2 < b.size →
      px = g.gr_draw.byteAt (y + j, x + i, 0) → Ensures A (body (pointer right (pointer down q j) i))
        (fun _ b' => Edits (fun c => c < 3) (fun c => px + c) (e j i) b b') b) :
    Ensures A (walk down (walk right body w) h q) (fun _ b' => Edits (Rect x y w h) g.gr_draw.byteAt
      (fun t => e (t.1 - y) (t.2.1 - x) t.2.2) b b') b := by
  have hrow := hv.row
  refine (grid_edits (p := g.gr_draw.byteAt (y, x, 0)) (s := 4) (n := 3)
    (e := fun t => e t.1 t.2.1 t.2.2) hsize (by decide) (show w * 4 ≤ g.gr_draw.row_bytes by omega) ?_).mono ?_
  · intro j hj i hi b hb
    have hplace : ∀ c, place (g.gr_draw.byteAt (y, x, 0)) g.gr_draw.row_bytes 4 (j, i, c) =
        g.gr_draw.byteAt (y + j, x + i, 0) + c := by
      intro c
      show 0 + y * g.gr_draw.row_bytes + x * 4 + 0 + j * g.gr_draw.row_bytes + i * 4 + c =
        0 + (y + j) * g.gr_draw.row_bytes + (x + i) * 4 + 0 + c
      rw [Nat.add_mul]
      omega
    have hlt := byteAt_lt hv (show x + i < g.gr_draw.width by omega) (show y + j < g.gr_draw.height by omega)
    refine (hbody j hj i hi b _ hb (by omega) rfl).mono fun _ b' hE => ?_
    exact hE.reindex id (fun c hc => hc) (fun c hc => ⟨c, hc, rfl⟩) (fun c _ => hplace c) fun _ _ => rfl
  · intro _ b' hE
    refine hE.reindex (fun t => (t.1 - y, t.2.1 - x, t.2.2)) ?_ ?_ ?_ fun _ _ => rfl
    · rintro ⟨j, i, c⟩ ⟨hj, hj', hi, hi', hc⟩
      refine ⟨?_, ?_, hc⟩
      · show j - y < h
        replace hj : y ≤ j := hj
        replace hj' : j < y + h := hj'
        omega
      · show i - x < w
        replace hi : x ≤ i := hi
        replace hi' : i < x + w := hi'
        omega
    · rintro ⟨j, i, c⟩ ⟨hj, hi, hc⟩
      refine ⟨(y + j, x + i, c), ⟨Nat.le_add_right .., Nat.add_lt_add_left hj y, Nat.le_add_right ..,
        Nat.add_lt_add_left hi x, hc⟩, ?_⟩
      show (y + j - y, x + i - x, c) = (j, i, c)
      rw [Nat.add_sub_cancel_left, Nat.add_sub_cancel_left]
    · rintro ⟨j, i, c⟩ ⟨hj, -, hi, -, -⟩
      obtain ⟨j', rfl⟩ := Nat.exists_eq_add_of_le hj
      obtain ⟨i', rfl⟩ := Nat.exists_eq_add_of_le hi
      show 0 + (y + j') * g.gr_draw.row_bytes + (x + i') * 4 + c =
        0 + y * g.gr_draw.row_bytes + x * 4 + 0 + (y + j' - y) * g.gr_draw.row_bytes + (x + i' - x) * 4 + c
      rw [Nat.add_sub_cancel_left, Nat.add_sub_cancel_left, Nat.add_mul]
      omega

/-- Two opposite corners on the screen: the rectangle between them is. -/
theorem rect_of_corners {x y w h : Int} (h₁ : ¬ outside g x y) (h₂ : ¬ outside g (x + w - 1) (y + h - 1)) :
    ∃ X Y : Nat, x = X ∧ y = Y ∧ X < g.gr_draw.width ∧ Y < g.gr_draw.height ∧
      X + w.toNat ≤ g.gr_draw.width ∧ Y + h.toNat ≤ g.gr_draw.height := by
  unfold outside at h₁ h₂
  exact ⟨x.toNat, y.toNat, by omega, by omega, by omega, by omega, by omega, by omega⟩

/-! ## `gr_fill` -/

/-- The rectangle that is filled, in coordinates of the screen; none where a corner lies outside. -/
def Filled (g : Globals) (x1 y1 x2 y2 : Int) (t : Nat × Nat × Nat) : Prop :=
  (¬ outside g (x1 + g.overscan_offset_x) (y1 + g.overscan_offset_y) ∧
    ¬ outside g (x2 + g.overscan_offset_x - 1) (y2 + g.overscan_offset_y - 1)) ∧
  (x1 + g.overscan_offset_x ≤ t.2.1 ∧ t.2.1 < x2 + g.overscan_offset_x ∧
    y1 + g.overscan_offset_y ≤ t.1 ∧ t.1 < y2 + g.overscan_offset_y) ∧ t.2.2 < 3

/-- The `int`s that `gr_fill` computes from its coordinates. -/
def FillFits (g : Globals) (x1 y1 x2 y2 : Int) : Prop :=
  OffsetFits g x1 y1 ∧ OffsetFits g x2 y2 ∧
    (¬ outside g (x1 + g.overscan_offset_x) (y1 + g.overscan_offset_y) →
      InInt (x2 + g.overscan_offset_x - 1) ∧ InInt (y2 + g.overscan_offset_y - 1))

/-- **`gr_fill`** mixes the colour into every pixel of its rectangle, and leaves every other byte as it
    is; nothing is filled unless both corners are on the screen. -/
theorem gr_fill_paints {x1 y1 x2 y2 : Int} (hv : g.gr_draw.Valid b.size) (hf : FillFits g x1 y1 x2 y2) :
    Ensures A (gr_fill g x1 y1 x2 y2) (fun _ b' => Edits (Filled g x1 y1 x2 y2) g.gr_draw.byteAt
      (fun t => mix g.gr_current_a.toNat (color g t.2.2)) b b') b := by
  obtain ⟨⟨hx1, hy1⟩, ⟨hx2, hy2⟩, hcorner⟩ := hf
  refine ensures_bind (ensures_signed hx1 (ensures_bind (ensures_signed hy1 (ensures_bind
    (ensures_signed hx2 (ensures_bind (ensures_signed hy2 (ensures_ite (fun hout => ?_) fun h₁ => ?_))))))))
  · exact ensures_pure (edits_none fun t ht => ht.1.1 hout)
  obtain ⟨hright, hbottom⟩ := hcorner h₁
  refine ensures_bind (ensures_signed hright (ensures_bind (ensures_signed hbottom
    (ensures_ite (fun hout => ?_) fun h₂ => ?_))))
  · exact ensures_pure (edits_none fun t ht => ht.1.2 hout)
  obtain ⟨X, Y, hX, hY, hcol, hrow, hw, hh⟩ := rect_of_corners (w := x2 - x1) (h := y2 - y1) h₁ (by
    rwa [show x1 + g.overscan_offset_x + (x2 - x1) - 1 = x2 + g.overscan_offset_x - 1 by omega,
      show y1 + g.overscan_offset_y + (y2 - y1) - 1 = y2 + g.overscan_offset_y - 1 by omega])
  have hwide : x2 + g.overscan_offset_x - (x1 + g.overscan_offset_x) = x2 - x1 := by omega
  have hhigh : y2 + g.overscan_offset_y - (y1 + g.overscan_offset_y) = y2 - y1 := by omega
  -- the same rectangle, told by its corners or by its size
  have hrect : ∀ t, Filled g x1 y1 x2 y2 t ↔ Rect X Y (x2 - x1).toNat (y2 - y1).toNat t := by
    rintro ⟨j, i, c⟩
    unfold Filled Rect
    dsimp only
    constructor
    · rintro ⟨-, ⟨hi, hi', hj, hj'⟩, hc⟩
      omega
    · rintro ⟨hj, hj', hi, hi', hc⟩
      refine ⟨⟨h₁, h₂⟩, ?_, hc⟩
      omega
  have hfill : ∀ f : Nat → Byte → Byte, Ensures A
      (walk (· + g.gr_draw.row_bytes) (walk (· + 4) (pixel f) (x2 - x1).toNat) (y2 - y1).toNat
        (address g (x1 + g.overscan_offset_x) (y1 + g.overscan_offset_y)))
      (fun _ b' => Edits (Filled g x1 y1 x2 y2) g.gr_draw.byteAt (fun t => f t.2.2) b b') b := by
    intro f
    rw [hX, hY, address_eq hv]
    refine (rect_edits (e := fun _ _ => f) hv rfl hw hh ?_).mono fun _ b' hE => ?_
    · intro j _ i _ b px _ hpx heq
      have hptr : pointer (· + 4) (pointer (· + g.gr_draw.row_bytes) (g.gr_draw.byteAt (Y, X, 0)) j) i = px := by
        rw [pointer_add, pointer_add, heq]
        show 0 + Y * g.gr_draw.row_bytes + X * 4 + 0 + j * g.gr_draw.row_bytes + i * 4 =
          0 + (Y + j) * g.gr_draw.row_bytes + (X + i) * 4 + 0
        rw [Nat.add_mul]
        omega
      rw [hptr]
      exact pixel_edits f hpx
    · exact hE.reindex id (fun t => (hrect t).mp) (fun t ht => ⟨t, (hrect t).mpr ht, rfl⟩) (fun _ _ => rfl)
        fun _ _ => rfl
  rw [hX, hY, pointTo_eq hv hcol hrow, ret_bind, ← hX, ← hY, hwide, hhigh]
  refine ensures_ite (fun hfull => ?_) fun _ => ensures_ite (fun _ => ?_) fun hnone => ?_
  · rw [putPixel_eq, hfull]
    exact hfill fun c => mix 255 (color g c)
  · exact hfill fun c => mix g.gr_current_a.toNat (color g c)
  · rw [Nat.eq_zero_of_not_pos hnone]
    exact ensures_pure (edits_self fun t _ => mix_none _ _)

/-! ## Text and icons -/

/-- The texture has a byte for every pixel of an image that begins at `src`. -/
def Images (texture : GRSurface) (src w h : Nat) : Prop :=
  ∀ j < h, ∀ i < w, src + j * texture.row_bytes + i < texture.data.size

/-- **`text_blend`** onto a rectangle of the screen. -/
theorem text_blend_edits {texture : GRSurface} {src x y w h : Nat} (hv : g.gr_draw.Valid size)
    (hsize : b.size = size) (hx : x + w ≤ g.gr_draw.width) (hy : y + h ≤ g.gr_draw.height)
    (him : Images texture src w h) :
    Ensures A (text_blend g texture.data src texture.row_bytes (address g x y) g.gr_draw.row_bytes w h)
      (fun _ b' => Edits (Rect x y w h) g.gr_draw.byteAt (fun t => mix (coverage g (texture.data.byte
        (src + (t.1 - y) * texture.row_bytes + (t.2.1 - x)))) (color g t.2.2)) b b') b := by
  rw [address_eq hv]
  refine rect_edits (e := fun j i c => mix (coverage g (texture.data.byte
    (src + j * texture.row_bytes + i))) (color g c)) hv hsize hx hy ?_
  intro j hj i hi b px _ hpx heq
  have hptr : pointer (fun p : Nat × Nat => (p.1 + 1, p.2 + 4)) (pointer (fun p : Nat × Nat =>
      (p.1 + texture.row_bytes, p.2 + g.gr_draw.row_bytes)) (src, g.gr_draw.byteAt (y, x, 0)) j) i =
      (src + j * texture.row_bytes + i, px) := by
    rw [pointer_prod (· + texture.row_bytes) (· + g.gr_draw.row_bytes), pointer_prod (· + 1) (· + 4),
      pointer_add, pointer_add, pointer_add, pointer_add, Nat.mul_one, heq]
    refine Prod.ext rfl ?_
    show 0 + y * g.gr_draw.row_bytes + x * 4 + 0 + j * g.gr_draw.row_bytes + i * 4 =
      0 + (y + j) * g.gr_draw.row_bytes + (x + i) * 4 + 0
    rw [Nat.add_mul]
    omega
  rw [hptr]
  exact blendPixel_edits (him j hj i hi) hpx

/-- Where the image of a character begins. -/
def glyph (g : Globals) (texture : GRSurface) (bold : Prop) [Decidable bold] (ch : Byte) : Nat :=
  letter ch * g.gr_font.cwidth + if bold then g.gr_font.cheight * texture.row_bytes else 0

/-- The `int`s that are computed from the sizes of a font. -/
def FontFits (g : Globals) (texture : GRSurface) : Prop :=
  (g.gr_draw.width + g.gr_font.cwidth < 2147483648 ∧ g.gr_draw.height + g.gr_font.cheight < 2147483648) ∧
    94 * g.gr_font.cwidth < 2147483648 ∧ g.gr_font.cheight * texture.row_bytes < 2147483648

theorem letter_le (ch : Byte) : letter ch ≤ 94 := by
  rw [letter]
  split <;> omega

/-- No image of a font is out of reach of an `int`. -/
theorem image_eq {texture : GRSurface} {bold : Prop} [Decidable bold] (hf : FontFits g texture) (ch : Byte) :
    image g texture bold ch = pure (glyph g texture bold ch) := by
  obtain ⟨-, hcolumns, hrows⟩ := hf
  have hle : letter ch * g.gr_font.cwidth ≤ 94 * g.gr_font.cwidth := Nat.mul_le_mul_right _ (letter_le ch)
  have hcolumn : InInt ((letter ch : Int) * g.gr_font.cwidth) := by
    rw [← Int.natCast_mul]
    exact ⟨by omega, by omega⟩
  have hrow : InInt ((g.gr_font.cheight : Int) * texture.row_bytes) := by
    rw [← Int.natCast_mul]
    exact ⟨by omega, by omega⟩
  rw [image, glyph, signed_of_inInt hcolumn, ret_bind]
  dsimp only
  by_cases hbold : bold
  · rw [if_pos hbold, if_pos hbold, signed_of_inInt hrow, ← Int.natCast_mul, ← Int.natCast_mul,
      ret_bind, ← Int.natCast_add, Int.toNat_natCast]
  · rw [if_neg hbold, if_neg hbold, ret_bind, ← Int.natCast_mul, Int.add_zero, Int.toNat_natCast, Nat.add_zero]

/-- One character of a text, where no `int` overflows. -/
theorem textLoop_cons {texture : GRSurface} {bold : Prop} [Decidable bold] (hv : g.gr_draw.Valid size)
    (hf : FontFits g texture) (x y : Int) (ch : Byte) (s : List Byte) :
    textLoop g texture bold y (ch :: s) x =
      if outside g x y ∨ outside g (x + g.gr_font.cwidth - 1) (y + g.gr_font.cheight - 1) then pure ()
      else
        text_blend g texture.data (glyph g texture bold ch) texture.row_bytes (address g x y)
          g.gr_draw.row_bytes g.gr_font.cwidth g.gr_font.cheight >>= fun _ =>
        textLoop g texture bold y s (x + g.gr_font.cwidth) := by
  obtain ⟨hwide, hhigh⟩ := hf.1
  have hcorner : CornerFits g x y g.gr_font.cwidth g.gr_font.cheight := by
    intro hin
    unfold outside at hin
    unfold InInt
    omega
  rw [textLoop, misses_eq hcorner, ret_bind]
  by_cases hout : outside g x y ∨ outside g (x + g.gr_font.cwidth - 1) (y + g.gr_font.cheight - 1)
  · rw [if_pos hout, decide_eq_true hout]
    rfl
  · rw [if_neg hout, decide_eq_false hout]
    obtain ⟨X, Y, rfl, rfl, hcol, hrow, -⟩ := rect_of_corners (not_or.mp hout).1 (not_or.mp hout).2
    have hnext : InInt ((X : Int) + g.gr_font.cwidth) := ⟨by omega, by omega⟩
    show (image g texture bold ch >>= _) = _
    rw [image_eq hf, ret_bind, pointTo_eq hv hcol hrow, ret_bind, signed_of_inInt hnext]
    rfl

/-- How many characters are drawn: up to the first whose cell does not lie on the screen. -/
def shown (g : Globals) (y : Int) : List Byte → Int → Nat
  | [], _ => 0
  | _ :: s, x =>
    if outside g x y ∨ outside g (x + g.gr_font.cwidth - 1) (y + g.gr_font.cheight - 1) then 0
    else shown g y s (x + g.gr_font.cwidth) + 1

/-- `gr_text` is a walk over the cells that are shown. -/
theorem textLoop_eq_walk {texture : GRSurface} {bold : Prop} [Decidable bold] (hv : g.gr_draw.Valid size)
    (hf : FontFits g texture) (y : Int) (s : List Byte) : ∀ x, textLoop g texture bold y s x =
      walk (fun p : Int × List Byte => (p.1 + g.gr_font.cwidth, p.2.tail))
        (fun p => text_blend g texture.data (glyph g texture bold (p.2.headD 0)) texture.row_bytes
          (address g p.1 y) g.gr_draw.row_bytes g.gr_font.cwidth g.gr_font.cheight)
        (shown g y s x) (x, s) := by
  induction s with
  | nil => exact fun _ => rfl
  | cons ch s ih =>
    intro x
    by_cases hout : outside g x y ∨ outside g (x + g.gr_font.cwidth - 1) (y + g.gr_font.cheight - 1)
    · rw [textLoop_cons hv hf, shown, if_pos hout, if_pos hout]
      rfl
    · rw [textLoop_cons hv hf, shown, if_neg hout, if_neg hout, ih]
      rfl

theorem pointer_text (d : Nat) (k : Nat) : ∀ (x : Int) (s : List Byte),
    pointer (fun p : Int × List Byte => (p.1 + d, p.2.tail)) (x, s) k = (x + k * d, s.drop k) := by
  induction k with
  | zero =>
    intro x s
    refine Prod.ext ?_ rfl
    show x = x + (0 : Nat) * d
    omega
  | succ k ih =>
    intro x s
    refine (ih (x + d) s.tail).trans (Prod.ext ?_ ?_)
    · show x + d + k * d = x + (k + 1 : Nat) * d
      rw [Int.natCast_add, Int.add_mul]
      omega
    · exact List.drop_tail

/-- The cells that are shown lie on the screen. -/
theorem shown_inside {y : Int} {k : Nat} : ∀ {s : List Byte} {x : Int}, k < shown g y s x →
    ¬ outside g (x + k * g.gr_font.cwidth) y ∧
      ¬ outside g (x + k * g.gr_font.cwidth + g.gr_font.cwidth - 1) (y + g.gr_font.cheight - 1)
  | [], x, hk => absurd hk (Nat.not_lt_zero k)
  | ch :: s, x, hk => by
    rw [shown] at hk
    by_cases hout : outside g x y ∨ outside g (x + g.gr_font.cwidth - 1) (y + g.gr_font.cheight - 1)
    · rw [if_pos hout] at hk
      exact absurd hk (Nat.not_lt_zero k)
    · rw [if_neg hout] at hk
      cases k with
      | zero =>
        rw [show x + ((0 : Nat) : Int) * g.gr_font.cwidth = x by omega]
        exact not_or.mp hout
      | succ k =>
        have hrest := shown_inside (Nat.lt_of_succ_lt_succ hk)
        rwa [show x + ((k + 1 : Nat) : Int) * g.gr_font.cwidth = x + g.gr_font.cwidth + k * g.gr_font.cwidth by
          rw [Int.natCast_add, Int.add_mul]; omega]

/-- How many of `n` cells fit between `x` and the right edge. -/
def cells (g : Globals) (x y : Int) (n : Nat) : Nat :=
  if 0 ≤ x ∧ 0 ≤ y ∧ y + g.gr_font.cheight ≤ g.gr_draw.height then
    min n ((g.gr_draw.width - x) / g.gr_font.cwidth).toNat
  else 0

theorem shown_eq_cells (hcw : 0 < g.gr_font.cwidth) (hch : 0 < g.gr_font.cheight) (y : Int) :
    ∀ (s : List Byte) (x : Int), shown g y s x = cells g x y s.length
  | [], x => by
    rw [shown, cells, List.length_nil, Nat.zero_min, ite_self]
  | ch :: s, x => by
    have hd : (0 : Int) < g.gr_font.cwidth := Int.natCast_pos.mpr hcw
    rw [shown, cells, List.length_cons]
    by_cases hrows : 0 ≤ x ∧ 0 ≤ y ∧ y + g.gr_font.cheight ≤ g.gr_draw.height
    · rw [if_pos hrows]
      by_cases hout : outside g x y ∨ outside g (x + g.gr_font.cwidth - 1) (y + g.gr_font.cheight - 1)
      · have hnarrow : (g.gr_draw.width : Int) - x < g.gr_font.cwidth := by
          unfold outside at hout
          omega
        have hnone : ((g.gr_draw.width - x) / g.gr_font.cwidth).toNat = 0 :=
          Int.toNat_eq_zero.mpr (Int.lt_add_one_iff.mp (Int.ediv_lt_of_lt_mul hd (by omega)))
        rw [if_pos hout, hnone, Nat.min_zero]
      · have hwide : (g.gr_font.cwidth : Int) ≤ g.gr_draw.width - x := by
          unfold outside at hout
          omega
        have hstep : ((g.gr_draw.width : Int) - x) / g.gr_font.cwidth =
            (g.gr_draw.width - (x + g.gr_font.cwidth)) / g.gr_font.cwidth + 1 := by
          have := Int.add_mul_ediv_right ((g.gr_draw.width : Int) - (x + g.gr_font.cwidth)) 1 (Int.ne_of_gt hd)
          rw [Int.one_mul, show (g.gr_draw.width : Int) - (x + g.gr_font.cwidth) + g.gr_font.cwidth =
            g.gr_draw.width - x by omega] at this
          exact this
        have hrest : 0 ≤ ((g.gr_draw.width : Int) - (x + g.gr_font.cwidth)) / g.gr_font.cwidth :=
          Int.ediv_nonneg (by omega) (Int.le_of_lt hd)
        rw [if_neg hout, shown_eq_cells hcw hch y s, cells, if_pos ⟨by omega, hrows.2⟩, hstep]
        omega
    · have hout : outside g x y ∨ outside g (x + g.gr_font.cwidth - 1) (y + g.gr_font.cheight - 1) := by
        unfold outside
        omega
      rw [if_neg hrows, if_pos hout]

/-- The strip of cells of a text. -/
def Strip (x y : Int) (w h : Nat) (t : Nat × Nat × Nat) : Prop :=
  (x ≤ t.2.1 ∧ t.2.1 < x + w) ∧ (y ≤ t.1 ∧ t.1 < y + h) ∧ t.2.2 < 3

/-- The byte of the texture that a pixel of a text at `x`, `y` shows. -/
def texel (g : Globals) (texture : GRSurface) (bold : Prop) [Decidable bold] (x y : Int) (s : List Byte)
    (t : Nat × Nat × Nat) : Byte :=
  texture.data.byte (glyph g texture bold (s.getD ((t.2.1 - x).toNat / g.gr_font.cwidth) 0) +
    (t.1 - y).toNat * texture.row_bytes + (t.2.1 - x).toNat % g.gr_font.cwidth)

/-- The corners of the cells that are shown are natural numbers, and on the screen. -/
theorem shown_fits {X Y k : Nat} {s : List Byte} (hk : k < shown g Y s X) :
    X + k * g.gr_font.cwidth + g.gr_font.cwidth ≤ g.gr_draw.width ∧ Y + g.gr_font.cheight ≤ g.gr_draw.height := by
  obtain ⟨X', Y', hX, hY, -, -, hw, hh⟩ := rect_of_corners (shown_inside hk).1 (shown_inside hk).2
  rw [Int.toNat_natCast] at hw hh
  have hcast : ((X + k * g.gr_font.cwidth : Nat) : Int) = X + k * g.gr_font.cwidth := by
    rw [Int.natCast_add, Int.natCast_mul]
  omega

/-- **Cells make a strip**: each pixel of it belongs to the cell that its column tells. -/
theorem strip_of_cells {d : Geometry} {n X Y w h : Nat} {e : Nat → Nat × Nat × Nat → Byte → Byte} {b' : Block}
    (hw : 0 < w) (hE : Edits (fun u : Nat × (Nat × Nat × Nat) => u.1 < n ∧ Rect (X + u.1 * w) Y w h u.2)
      (fun u => d.byteAt u.2) (fun u => e u.1 u.2) b b') :
    Edits (Strip X Y (n * w) h) d.byteAt (fun t => e ((t.2.1 - X) / w) t) b b' := by
  refine hE.reindex (fun t => ((t.2.1 - X) / w, t)) ?_ ?_ (fun _ _ => rfl) fun _ _ => rfl
  · rintro ⟨j, i, c⟩ ⟨⟨hi, hi'⟩, ⟨hj, hj'⟩, hc⟩
    dsimp only at hi hi' hj hj' hc
    have hdiv := Nat.div_add_mod (i - X) w
    have hmod := Nat.mod_lt (i - X) hw
    rw [Nat.mul_comm] at hdiv
    refine ⟨(Nat.div_lt_iff_lt_mul hw).mpr ?_, Int.ofNat_le.mp hj, Int.ofNat_lt.mp hj', ?_, ?_, hc⟩
    · show i - X < n * w
      omega
    · show X + (i - X) / w * w ≤ i
      omega
    · show i < X + (i - X) / w * w + w
      omega
  · rintro ⟨k, j, i, c⟩ ⟨hk, hj, hj', hi, hi', hc⟩
    dsimp only at hk hj hj' hi hi' hc
    have hmul : (k + 1) * w ≤ n * w := Nat.mul_le_mul_right _ hk
    rw [Nat.add_mul, Nat.one_mul] at hmul
    have hleft : X ≤ i := Nat.le_trans (Nat.le_add_right ..) hi
    have hright : i < X + n * w := by omega
    refine ⟨(j, i, c), ⟨⟨Int.ofNat_le.mpr hleft, Int.ofNat_lt.mpr hright⟩, ⟨Int.ofNat_le.mpr hj,
      Int.ofNat_lt.mpr hj'⟩, hc⟩, Prod.ext ?_ rfl⟩
    show (i - X) / w = k
    refine Nat.div_eq_of_lt_le (by omega) ?_
    rw [Nat.add_mul, Nat.one_mul]
    omega

/-- The loop of `gr_text` draws a strip. -/
theorem textLoop_edits {texture : GRSurface} {bold : Prop} [Decidable bold] {x y : Int} {s : List Byte}
    (hv : g.gr_draw.Valid b.size) (hf : FontFits g texture) (hcw : 0 < g.gr_font.cwidth)
    (him : ∀ ch, Images texture (glyph g texture bold ch) g.gr_font.cwidth g.gr_font.cheight) :
    Ensures A (textLoop g texture bold y s x) (fun _ b' =>
      Edits (Strip x y (shown g y s x * g.gr_font.cwidth) g.gr_font.cheight) g.gr_draw.byteAt
        (fun t => mix (coverage g (texel g texture bold x y s t)) (color g t.2.2)) b b') b := by
  rw [textLoop_eq_walk hv hf]
  by_cases hnone : shown g y s x = 0
  · rw [hnone]
    refine ensures_pure (edits_none ?_)
    rintro ⟨j, i, c⟩ ⟨⟨hi, hi'⟩, -⟩
    rw [Nat.zero_mul] at hi'
    dsimp only at hi hi'
    omega
  -- the corners of the first cell are natural numbers
  have hfirst := shown_inside (Nat.pos_of_ne_zero hnone)
  rw [show x + ((0 : Nat) : Int) * g.gr_font.cwidth = x by omega] at hfirst
  obtain ⟨X, Y, rfl, rfl, -⟩ := rect_of_corners hfirst.1 hfirst.2
  refine (walk_edits (P := fun k => Rect (X + k * g.gr_font.cwidth) Y g.gr_font.cwidth g.gr_font.cheight)
    (A := fun _ => g.gr_draw.byteAt) (e := fun k t => mix (coverage g (texture.data.byte
      (glyph g texture bold (s.getD k 0) + (t.1 - Y) * texture.row_bytes +
        (t.2.1 - (X + k * g.gr_font.cwidth))))) (color g t.2.2)) rfl ?_ ?_).mono ?_
  · intro k hk b' hb
    rw [pointer_text]
    have hhead : (s.drop k).headD 0 = s.getD k 0 := by
      rw [List.headD_eq_head?_getD, List.head?_drop, List.getD_eq_getElem?_getD]
    show Ensures A (text_blend g texture.data (glyph g texture bold ((s.drop k).headD 0)) _
      (address g (X + k * g.gr_font.cwidth) Y) _ _ _) _ _
    rw [hhead, show (X : Int) + k * g.gr_font.cwidth = ((X + k * g.gr_font.cwidth : Nat) : Int) by
      rw [Int.natCast_add, Int.natCast_mul]]
    exact text_blend_edits hv hb (shown_fits hk).1 (shown_fits hk).2 (him _)
  · rintro j k hjk hk t u ⟨-, -, ht, ht', htc⟩ ⟨-, -, hu, hu', huc⟩ heq
    have hcellj := (shown_fits (Nat.lt_trans hjk hk)).1
    have hcellk := (shown_fits hk).1
    have hsame := place_injective (w := g.gr_draw.width) (n := 3) (by decide) hv.row (by omega) htc (by omega)
      huc heq
    have hmul : (j + 1) * g.gr_font.cwidth ≤ k * g.gr_font.cwidth := Nat.mul_le_mul_right _ hjk
    rw [Nat.add_mul, Nat.one_mul] at hmul
    rw [hsame] at ht'
    omega
  · intro _ b' hE
    have hstrip := strip_of_cells hcw (e := fun k t => mix (coverage g (texture.data.byte
      (glyph g texture bold (s.getD k 0) + (t.1 - Y) * texture.row_bytes +
        (t.2.1 - (X + k * g.gr_font.cwidth))))) (color g t.2.2)) hE
    refine hstrip.reindex id (fun _ ht => ht) (fun t ht => ⟨t, ht, rfl⟩) (fun _ _ => rfl) ?_
    · rintro ⟨j, i, c⟩ ⟨⟨hi, -⟩, ⟨hj, -⟩, -⟩
      dsimp only [id] at hi hj ⊢
      have hx : ((i : Int) - X).toNat = i - X := by omega
      have hy : ((j : Int) - Y).toNat = j - Y := by omega
      have hmod : i - (X + (i - X) / g.gr_font.cwidth * g.gr_font.cwidth) = (i - X) % g.gr_font.cwidth := by
        have hdiv := Nat.div_add_mod (i - X) g.gr_font.cwidth
        rw [Nat.mul_comm] at hdiv
        omega
      rw [texel, hx, hy, hmod]

/-- **`gr_text`** draws as many characters as fit between `x` and the right edge, each in the cell next
    to the one before, and touches no other byte. -/
theorem gr_text_draws {x y : Int} {s : List Byte} {bold : Bool} {texture : GRSurface}
    (ht : g.gr_font.texture = some texture) (hv : g.gr_draw.Valid b.size) (hxy : OffsetFits g x y)
    (hf : FontFits g texture) (hcw : 0 < g.gr_font.cwidth) (hch : 0 < g.gr_font.cheight)
    (him : ∀ ch, Images texture (glyph g texture (bold ∧ texture.height ≠ g.gr_font.cheight) ch)
      g.gr_font.cwidth g.gr_font.cheight) :
    Ensures A (gr_text g x y s bold) (fun _ b' => Edits
      (Strip (x + g.overscan_offset_x) (y + g.overscan_offset_y)
        (cells g (x + g.overscan_offset_x) (y + g.overscan_offset_y) s.length * g.gr_font.cwidth)
        g.gr_font.cheight)
      g.gr_draw.byteAt
      (fun t => mix (coverage g (texel g texture (bold ∧ texture.height ≠ g.gr_font.cheight)
        (x + g.overscan_offset_x) (y + g.overscan_offset_y) s t)) (color g t.2.2)) b b') b := by
  rw [gr_text, ht, ← shown_eq_cells hcw hch]
  refine ensures_ite (fun hclear => ensures_pure (edits_self fun t _ => ?_)) fun _ => ensures_bind
    (ensures_signed hxy.1 (ensures_bind (ensures_signed hxy.2 (textLoop_edits hv hf hcw him))))
  have hnone : ∀ c, coverage g c = 0 := fun c => by
    rw [coverage, hclear]
    exact (if_pos (by decide)).trans (Nat.zero_div _)
  rw [hnone]
  exact mix_none _ _

end Codina.Recovery.Drawing
