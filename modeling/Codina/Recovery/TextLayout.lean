/-
  The text functions of the recovery's own fonts: `gr_measureEx`, `gr_maxExW`, `gr_textEx`, and its
  variants with a limit, `gr_textExW` and `gr_textExWH`.

  Text is drawn as a row of textured rectangles, one for each character that has an image; the others
  take no room.  The rectangles handed to the graphics library are what the functions emit.  What a rectangle
  shows is a matter of the library: with one texel a pixel, the texel at the pixel's place plus
  the texture coordinate, and nothing where the right or the lower side comes first.

  Both variants show exactly what `gr_textEx` shows inside of the limits, although one stops at the
  character that meets the limit and the other goes on until it has passed it.  `gr_maxExW` counts the
  characters that `gr_textExW` draws whole.  All of this is so as long as the columns are `int`s: they
  wrap around, and a text that does begins anew at the far left.
-/
import Codina.Lib.Ints
import Codina.Lib.Raster

namespace Codina.Recovery.TextLayout

open Codina.Ints Codina.Raster

/-! ## The program -/

/-- `offset[k]` is the column where the image of character `k` begins, and that of the one before ends. -/
structure GRFont where
  offset : Nat → BitVec 32
  cheight : BitVec 32

/-- `gl->texCoord2i(gl, texS, texT)`, and then `gl->recti(gl, left, top, right, bottom)`. -/
structure Recti where
  texS : Int
  texT : Int
  left : Int
  top : Int
  right : Int
  bottom : Int
  deriving DecidableEq

/-- `off -= 32; if (off < 96)`, with `off` unsigned: the characters that have an image. -/
def image (ch : Byte) : Option Nat :=
  let off := ch.setWidth 32 - 32#32
  if off.toNat < 96 then some off.toNat else none

/-- The widths are differences of unsigned integers.  What they are added to, an `int`, is unsigned for
    the sum, which therefore wraps around.  (So does the sum of two `int`s in `gr_textExW` and
    `gr_textExWH` here, which is undefined where it overflows.) -/
def cwidth (font : GRFont) (off : Nat) : Int := (font.offset (off + 1) - font.offset off).toInt

/-- `gr_measureEx`, from `total` on. -/
def measureLoop (font : GRFont) : List Byte → Int → Int
  | [], total => total
  | ch :: s, total =>
    match image ch with
    | none => measureLoop font s total
    | some off => measureLoop font s (wrap (total + cwidth font off))

def gr_measureEx (font : GRFont) (s : List Byte) : Int := measureLoop font s 0

/-- `gr_maxExW`, from `total` on. -/
def maxLoop (font : GRFont) : List Byte → Int → Int → Int
  | [], _, total => total
  | ch :: s, max_width, total =>
    match image ch with
    | none => maxLoop font s max_width total
    | some off =>
      let max_width := wrap (max_width - cwidth font off)
      if 0 < max_width then maxLoop font s max_width (wrap (total + 1)) else total

def gr_maxExW (font : GRFont) (s : List Byte) (max_width : Int) : Int := maxLoop font s max_width 0

/-- The image `off` from `x`, `y` to `right`, `bottom`. -/
def recti (font : GRFont) (off : Nat) (x y right bottom : Int) : Recti where
  texS := wrap ((font.offset off).toInt - x)
  texT := wrap (0 - y)
  left := x
  top := y
  right := right
  bottom := bottom

/-- The rectangles, and the column returned. -/
def gr_textEx (font : GRFont) (y : Int) : List Byte → Int → List Recti × Int
  | [], x => ([], x)
  | ch :: s, x =>
    match image ch with
    | none => gr_textEx font y s x
    | some off =>
      let rest := gr_textEx font y s (wrap (x + cwidth font off))
      (recti font off x y (wrap (x + cwidth font off)) (wrap (y + font.cheight.toNat)) :: rest.1, rest.2)

def gr_textExW (font : GRFont) (y max_width : Int) : List Byte → Int → List Recti × Int
  | [], x => ([], x)
  | ch :: s, x =>
    match image ch with
    | none => gr_textExW font y max_width s x
    | some off =>
      if wrap (x + cwidth font off) < max_width then
        let rest := gr_textExW font y max_width s (wrap (x + cwidth font off))
        (recti font off x y (wrap (x + cwidth font off)) (wrap (y + font.cheight.toNat)) :: rest.1, rest.2)
      else
        ([recti font off x y max_width (wrap (y + font.cheight.toNat))], max_width)

/-- `y + font->cheight < (unsigned int)(max_height)`, of unsigned integers. -/
def below (font : GRFont) (y max_height : Int) : Prop :=
  (BitVec.ofInt 32 y + font.cheight).toNat < (BitVec.ofInt 32 max_height).toNat

instance (font : GRFont) (y max_height : Int) : Decidable (below font y max_height) :=
  inferInstanceAs (Decidable (_ < _))

def gr_textExWH (font : GRFont) (y max_width max_height : Int) : List Byte → Int → List Recti × Int
  | [], x => ([], x)
  | ch :: s, x =>
    match image ch with
    | none => gr_textExWH font y max_width max_height s x
    | some off =>
      let rect_x := if wrap (x + cwidth font off) < max_width then wrap (x + cwidth font off) else max_width
      let rect_y := if below font y max_height then wrap (y + font.cheight.toNat) else max_height
      let rect := recti font off x y rect_x rect_y
      let x := wrap (x + cwidth font off)
      if max_width < x then ([rect], x)
      else
        let rest := gr_textExWH font y max_width max_height s x
        (rect :: rest.1, rest.2)

/-! ## What is shown -/

/-- The texel a rectangle shows at the pixel in column `p.1` and row `p.2`. -/
def Recti.Shows (r : Recti) (p t : Int × Int) : Prop :=
  (r.left ≤ p.1 ∧ p.1 < r.right) ∧ (r.top ≤ p.2 ∧ p.2 < r.bottom) ∧ t = (p.1 + r.texS, p.2 + r.texT)

def Shows (rects : List Recti) (p t : Int × Int) : Prop := ∃ r ∈ rects, r.Shows p t

/-- The images follow one another in the texture. -/
def Ascending (font : GRFont) : Prop :=
  (font.offset 96).toNat < 2147483648 ∧ ∀ k < 96, (font.offset k).toNat ≤ (font.offset (k + 1)).toNat

/-- The columns at which the characters of a text end, exactly. -/
def columns (font : GRFont) : List Byte → Int → List Int
  | [], _ => []
  | ch :: s, x =>
    match image ch with
    | none => columns font s x
    | some off => (x + cwidth font off) :: columns font s (x + cwidth font off)

variable {font : GRFont} {x y max_width max_height : Int} {s : List Byte} {p t : Int × Int}

theorem columns_none {ch : Byte} (h : image ch = none) : columns font (ch :: s) x = columns font s x := by
  rw [columns, h]

theorem columns_some {ch : Byte} {off : Nat} (h : image ch = some off) :
    columns font (ch :: s) x = (x + cwidth font off) :: columns font s (x + cwidth font off) := by
  rw [columns, h]

/-- What is so of all columns of a text is so of the first, and of all that follow. -/
theorem columns_step {P : Int → Prop} {ch : Byte} {off : Nat} (h : image ch = some off)
    (hc : ∀ c ∈ columns font (ch :: s) x, P c) :
    P (x + cwidth font off) ∧ ∀ c ∈ columns font s (x + cwidth font off), P c := by
  rw [columns_some h] at hc
  exact List.forall_mem_cons.mp hc

theorem shows_nil : ¬ Shows [] p t := by
  rintro ⟨r, hr, -⟩
  cases hr

theorem shows_cons {r : Recti} {rects : List Recti} : Shows (r :: rects) p t ↔ r.Shows p t ∨ Shows rects p t := by
  simp only [Shows, List.mem_cons, exists_eq_or_imp]

theorem image_lt {ch : Byte} {off : Nat} (h : image ch = some off) : off < 96 := by
  unfold image at h
  dsimp only at h
  split at h
  · rename_i hlt
    exact Option.some.inj h ▸ hlt
  · cases h

theorem offset_le (hf : Ascending font) : ∀ {k j : Nat}, k ≤ j → j ≤ 96 → (font.offset k).toNat ≤ (font.offset j).toNat
  | k, 0, hk, _ => by
    obtain rfl := Nat.le_zero.mp hk
    exact Nat.le_refl _
  | k, j + 1, hk, hj => by
    rcases Nat.lt_or_eq_of_le hk with hlt | rfl
    · exact Nat.le_trans (offset_le hf (Nat.le_of_lt_succ hlt) (Nat.le_of_lt hj)) (hf.2 j hj)
    · exact Nat.le_refl _

/-- No image has a negative width. -/
theorem cwidth_nonneg (hf : Ascending font) {ch : Byte} {off : Nat} (h : image ch = some off) :
    0 ≤ cwidth font off := by
  have hoff := image_lt h
  have hle := hf.2 off hoff
  have hend := offset_le hf (show off + 1 ≤ 96 from hoff) (Nat.le_refl 96)
  have hlast := hf.1
  have hsub : (font.offset (off + 1) - font.offset off).toNat =
      (font.offset (off + 1)).toNat - (font.offset off).toNat :=
    BitVec.toNat_sub_of_le (BitVec.le_def.mpr hle)
  rw [cwidth, BitVec.toInt_eq_toNat_of_lt (by omega)]
  exact Int.natCast_nonneg _

/-- Text goes to the right. -/
theorem textEx_end (hf : Ascending font) : ∀ (s : List Byte) (x : Int), (∀ c ∈ columns font s x, InInt c) →
    x ≤ (gr_textEx font y s x).2
  | [], x, _ => Int.le_refl x
  | ch :: s, x, hc => by
    rw [gr_textEx]
    split
    · rename_i hnone
      exact textEx_end hf s x (columns_none hnone ▸ hc)
    · rename_i off hoff
      obtain ⟨hfirst, hc⟩ := columns_step hoff hc
      have hw := cwidth_nonneg hf hoff
      have hrest := textEx_end hf s (x + cwidth font off) hc
      rw [wrap_of_inInt hfirst]
      show x ≤ (gr_textEx font y s (x + cwidth font off)).2
      omega

/-- Nothing is shown to the left of where the text begins. -/
theorem textEx_start (hf : Ascending font) : ∀ (s : List Byte) {x : Int}, (∀ c ∈ columns font s x, InInt c) →
    Shows (gr_textEx font y s x).1 p t → x ≤ p.1
  | [], x, _, h => (shows_nil h).elim
  | ch :: s, x, hc, h => by
    rw [gr_textEx] at h
    split at h
    · rename_i hnone
      exact textEx_start hf s (columns_none hnone ▸ hc) h
    · rename_i off hoff
      obtain ⟨hfirst, hc⟩ := columns_step hoff hc
      have hw := cwidth_nonneg hf hoff
      rw [wrap_of_inInt hfirst] at h
      rcases shows_cons.mp h with hr | hrest
      · exact hr.1.1
      · have := textEx_start hf s hc hrest
        omega

/-- **`gr_measureEx`** says where `gr_textEx` ends. -/
theorem measureLoop_eq : ∀ (s : List Byte) (x : Int), measureLoop font s x = (gr_textEx font y s x).2
  | [], _ => rfl
  | ch :: s, x => by
    rw [measureLoop, gr_textEx]
    split
    · exact measureLoop_eq s x
    · exact measureLoop_eq s _

/-- The font `gr_init_font` builds: `offset[element] = element * font.cwidth`. -/
def builtinFont (cwidth cheight : Nat) : GRFont where
  offset := fun element => BitVec.ofNat 32 (element * cwidth)
  cheight := BitVec.ofNat 32 cheight

theorem ascending_builtin {cwidth : Nat} (h : 96 * cwidth < 2147483648) (cheight : Nat) :
    Ascending (builtinFont cwidth cheight) := by
  have hle : ∀ k ≤ 96, (BitVec.ofNat 32 (k * cwidth)).toNat = k * cwidth := by
    intro k hk
    have := Nat.mul_le_mul_right cwidth hk
    rw [BitVec.toNat_ofNat]
    exact Nat.mod_eq_of_lt (by omega)
  refine ⟨?_, fun k hk => ?_⟩
  · show (BitVec.ofNat 32 (96 * cwidth)).toNat < _
    rw [hle 96 (Nat.le_refl _)]
    exact h
  · show (BitVec.ofNat 32 (k * cwidth)).toNat ≤ (BitVec.ofNat 32 ((k + 1) * cwidth)).toNat
    rw [hle k (Nat.le_of_lt hk), hle (k + 1) hk]
    exact Nat.mul_le_mul_right _ (Nat.le_succ k)

/-! ## The limits -/

/-- **`gr_textExW`** cuts the text off at `max_width`: it shows what `gr_textEx` shows to the left of it,
    and ends there or where the text does. -/
theorem gr_textExW_cuts (hf : Ascending font) : ∀ (s : List Byte) {x : Int},
    (∀ c ∈ columns font s x, InInt c) → x ≤ max_width →
    (gr_textExW font y max_width s x).2 = min (gr_textEx font y s x).2 max_width ∧
      ∀ p t, Shows (gr_textExW font y max_width s x).1 p t ↔ Shows (gr_textEx font y s x).1 p t ∧ p.1 < max_width
  | [], x, _, hx => ⟨(Int.min_eq_left hx).symm, fun p t =>
      ⟨fun h => (shows_nil h).elim, fun h => (shows_nil h.1).elim⟩⟩
  | ch :: s, x, hc, hx => by
    rw [gr_textExW, gr_textEx]
    split
    · rename_i hnone
      exact gr_textExW_cuts hf s (columns_none hnone ▸ hc) hx
    · rename_i off hoff
      obtain ⟨hfirst, hc⟩ := columns_step hoff hc
      have hw := cwidth_nonneg hf hoff
      rw [wrap_of_inInt hfirst]
      by_cases hfit : x + cwidth font off < max_width
      · rw [if_pos hfit]
        obtain ⟨hend, hshows⟩ := gr_textExW_cuts hf s hc (Int.le_of_lt hfit)
        refine ⟨hend, fun p t => ?_⟩
        rw [shows_cons, shows_cons, hshows, or_and_right]
        refine or_congr_left ⟨fun hr => ⟨hr, ?_⟩, And.left⟩
        exact Int.lt_trans hr.1.2 hfit
      · rw [if_neg hfit]
        have hend := textEx_end (y := y) hf s (x + cwidth font off) hc
        refine ⟨?_, fun p t => ?_⟩
        · show max_width = min (gr_textEx font y s (x + cwidth font off)).2 max_width
          omega
        · rw [shows_cons, shows_cons]
          constructor
          · rintro (⟨⟨hl, hr⟩, hrows, htex⟩ | hnone)
            · replace hr : p.1 < max_width := hr
              exact ⟨.inl ⟨⟨hl, show p.1 < x + cwidth font off by omega⟩, hrows, htex⟩, hr⟩
            · exact (shows_nil hnone).elim
          · rintro ⟨⟨⟨hl, -⟩, hrows, htex⟩ | hrest, hlim⟩
            · exact .inl ⟨⟨hl, hlim⟩, hrows, htex⟩
            · -- what follows lies beyond the limit
              have := textEx_start hf s hc hrest
              omega

/-- Three characters of ten columns, of which two and a half are to be drawn. -/
theorem gr_textExW_cuts_third :
    (gr_textExW (builtinFont 10 18) 4 32 [79, 75, 33] 7).2 =
        min (gr_textEx (builtinFont 10 18) 4 [79, 75, 33] 7).2 32 ∧
      ∀ p t, Shows (gr_textExW (builtinFont 10 18) 4 32 [79, 75, 33] 7).1 p t ↔
        Shows (gr_textEx (builtinFont 10 18) 4 [79, 75, 33] 7).1 p t ∧ p.1 < 32 :=
  gr_textExW_cuts (ascending_builtin (by decide) 18) _ (by decide) (by decide)

/-- A font with one image, of `2 ^ 30` columns, for `A`. -/
def wideFont : GRFont := ⟨fun k => if k < 34 then 0 else 1073741824, 4⟩

-- the second end wraps around, and the text ends to the left of where it began
example : (gr_textEx wideFont 0 [65, 65, 65] 0).2 = -1073741824 ∧
    (gr_textExW wideFont 0 100 [65, 65, 65] 0).2 = 100 := by decide

/-- The lower side, for coordinates that are `int`s: a negative limit is none. -/
theorem below_iff (hy : 0 ≤ y + font.cheight.toNat) (hy' : y + font.cheight.toNat < 2147483648)
    (hm : InInt max_height) :
    below font y max_height ↔ max_height < 0 ∨ y + font.cheight.toNat < max_height := by
  unfold InInt at hm
  unfold below
  rw [BitVec.toNat_add, BitVec.toNat_ofInt, BitVec.toNat_ofInt]
  omega

/-- A rectangle cut at both limits, each side by its own comparison. -/
theorem rect_cut {off : Nat} {right : Int} (hy : 0 ≤ y + font.cheight.toNat)
    (hy' : y + font.cheight.toNat < 2147483648) (hm : InInt max_height) :
    (recti font off x y (if right < max_width then right else max_width)
        (if below font y max_height then wrap (y + font.cheight.toNat) else max_height)).Shows p t ↔
      (recti font off x y right (wrap (y + font.cheight.toNat))).Shows p t ∧
        p.1 < max_width ∧ (max_height < 0 ∨ p.2 < max_height) := by
  have hcols : p.1 < (if right < max_width then right else max_width) ↔ p.1 < right ∧ p.1 < max_width := by
    split <;> omega
  have hlow : wrap (y + font.cheight.toNat) = y + font.cheight.toNat := wrap_of_inInt ⟨by omega, hy'⟩
  rw [hlow]
  have hrows : p.2 < (if below font y max_height then y + font.cheight.toNat else max_height) ↔
      p.2 < y + font.cheight.toNat ∧ (max_height < 0 ∨ p.2 < max_height) := by
    have hbelow := below_iff hy hy' hm
    rcases Decidable.em (below font y max_height) with hb | hb
    · rw [if_pos hb]
      have := hbelow.mp hb
      omega
    · rw [if_neg hb]
      have := mt hbelow.mpr hb
      omega
  unfold Recti.Shows recti
  dsimp only
  rw [hcols, hrows]
  constructor
  · rintro ⟨⟨hl, hr, hlim⟩, ⟨ht, hb, hlow⟩, htex⟩
    exact ⟨⟨⟨hl, hr⟩, ⟨ht, hb⟩, htex⟩, hlim, hlow⟩
  · rintro ⟨⟨⟨hl, hr⟩, ⟨ht, hb⟩, htex⟩, hlim, hlow⟩
    exact ⟨⟨hl, hr, hlim⟩, ⟨ht, hb, hlow⟩, htex⟩

/-- **`gr_textExWH`** shows what `gr_textEx` shows inside of both limits, and passes the limit exactly
    where the text does. -/
theorem gr_textExWH_cuts (hf : Ascending font) (hy : 0 ≤ y + font.cheight.toNat)
    (hy' : y + font.cheight.toNat < 2147483648) (hm : InInt max_height) : ∀ (s : List Byte) {x : Int},
    (∀ c ∈ columns font s x, InInt c) → x ≤ max_width →
    ((max_width < (gr_textExWH font y max_width max_height s x).2 ↔ max_width < (gr_textEx font y s x).2) ∧
      ∀ p t, Shows (gr_textExWH font y max_width max_height s x).1 p t ↔
        Shows (gr_textEx font y s x).1 p t ∧ p.1 < max_width ∧ (max_height < 0 ∨ p.2 < max_height))
  | [], x, _, hx => ⟨Iff.rfl, fun p t => ⟨fun h => (shows_nil h).elim, fun h => (shows_nil h.1).elim⟩⟩
  | ch :: s, x, hc, hx => by
    rw [gr_textExWH, gr_textEx]
    split
    · rename_i hnone
      exact gr_textExWH_cuts hf hy hy' hm s (columns_none hnone ▸ hc) hx
    · rename_i off hoff
      obtain ⟨hfirst, hc⟩ := columns_step hoff hc
      have hw := cwidth_nonneg hf hoff
      dsimp only
      rw [wrap_of_inInt hfirst]
      by_cases hpast : max_width < x + cwidth font off
      · rw [if_pos hpast]
        have hend := textEx_end (y := y) hf s (x + cwidth font off) hc
        refine ⟨⟨fun _ => Int.lt_of_lt_of_le hpast hend, fun _ => hpast⟩, fun p t => ?_⟩
        rw [shows_cons, shows_cons, rect_cut hy hy' hm]
        constructor
        · rintro (⟨hr, hlim⟩ | hnone)
          · exact ⟨.inl hr, hlim⟩
          · exact (shows_nil hnone).elim
        · rintro ⟨hr | hrest, hlim⟩
          · exact .inl ⟨hr, hlim⟩
          · have := textEx_start hf s hc hrest
            omega
      · rw [if_neg hpast]
        obtain ⟨hend, hshows⟩ := gr_textExWH_cuts hf hy hy' hm s hc (Int.not_lt.mp hpast)
        refine ⟨hend, fun p t => ?_⟩
        rw [shows_cons, shows_cons, rect_cut hy hy' hm, hshows, or_and_right]

theorem gr_textExWH_cuts_row :
    (32 < (gr_textExWH (builtinFont 10 18) 4 32 15 [79, 75, 33] 7).2 ↔
        32 < (gr_textEx (builtinFont 10 18) 4 [79, 75, 33] 7).2) ∧
      ∀ p t, Shows (gr_textExWH (builtinFont 10 18) 4 32 15 [79, 75, 33] 7).1 p t ↔
        Shows (gr_textEx (builtinFont 10 18) 4 [79, 75, 33] 7).1 p t ∧ p.1 < 32 ∧ (15 < (0 : Int) ∨ p.2 < 15) :=
  gr_textExWH_cuts (ascending_builtin (by decide) 18) (by decide) (by decide) (by decide) _ (by decide) (by decide)

/-- Counting on from `total`. -/
theorem maxLoop_add : ∀ (s : List Byte) (w total : Int), 0 ≤ total → total + s.length < 2147483648 →
    maxLoop font s w total = total + maxLoop font s w 0 ∧ 0 ≤ maxLoop font s w 0
  | [], _, total, _, _ => ⟨(Int.add_zero total).symm, Int.le_refl 0⟩
  | ch :: s, w, total, h0, hlen => by
    rw [List.length_cons] at hlen
    rw [maxLoop, maxLoop]
    split
    · exact maxLoop_add s w total h0 (by omega)
    · rename_i off _
      dsimp only
      by_cases hfit : 0 < wrap (w - cwidth font off)
      · obtain ⟨hmore, hnonneg⟩ := maxLoop_add s (wrap (w - cwidth font off)) (total + 1) (by omega) (by omega)
        obtain ⟨hone, -⟩ := maxLoop_add s (wrap (w - cwidth font off)) (0 + 1) (by decide) (by omega)
        have hcount : wrap (total + 1) = total + 1 := wrap_of_inInt ⟨by omega, by omega⟩
        have hfirst : wrap (0 + 1) = 0 + 1 := wrap_of_inInt (by decide)
        rw [if_pos hfit, if_pos hfit, hcount, hfirst, hmore, hone]
        omega
      · rw [if_neg hfit, if_neg hfit]
        exact ⟨(Int.add_zero total).symm, Int.le_refl 0⟩

/-- **`gr_maxExW`** counts the rectangles that `gr_textExW` draws as `gr_textEx` does; the next one, if there
    is one, it draws up to the limit, and it draws no more. -/
theorem gr_textExW_eq : ∀ (s : List Byte) (x w : Int),
    (∀ c ∈ columns font s x, InInt c ∧ InInt (x + w - c)) → s.length < 2147483648 →
    (gr_textExW font y (x + w) s x).1 = (gr_textEx font y s x).1.take (gr_maxExW font s w).toNat ++
      (((gr_textEx font y s x).1.drop (gr_maxExW font s w).toNat).take 1).map fun r => { r with right := x + w }
  | [], _, _, _, _ => rfl
  | ch :: s, x, w, hc, hlen => by
    rw [List.length_cons] at hlen
    rw [gr_maxExW, gr_textExW, gr_textEx, maxLoop]
    split
    · rename_i hnone
      exact gr_textExW_eq s x w (columns_none hnone ▸ hc) (by omega)
    · rename_i off hoff
      obtain ⟨⟨hcol, hleft⟩, hc⟩ := columns_step hoff hc
      have hw : x + w - (x + cwidth font off) = w - cwidth font off := by omega
      rw [hw] at hleft
      dsimp only
      rw [wrap_of_inInt hcol, wrap_of_inInt hleft]
      by_cases hfit : x + cwidth font off < x + w
      · have hsum : x + cwidth font off + (w - cwidth font off) = x + w := by omega
        have hrest := gr_textExW_eq s (x + cwidth font off) (w - cwidth font off) (hsum.symm ▸ hc) (by omega)
        rw [hsum] at hrest
        obtain ⟨hone, hnonneg⟩ : maxLoop font s (w - cwidth font off) (0 + 1) =
            0 + 1 + maxLoop font s (w - cwidth font off) 0 ∧ 0 ≤ maxLoop font s (w - cwidth font off) 0 :=
          maxLoop_add s _ (0 + 1) (by decide) (by omega)
        have hcount : (maxLoop font s (w - cwidth font off) (wrap (0 + 1))).toNat =
            (gr_maxExW font s (w - cwidth font off)).toNat + 1 := by
          rw [wrap_of_inInt (show InInt (0 + 1) by decide), hone, gr_maxExW]
          omega
        rw [if_pos hfit, if_pos (show 0 < w - cwidth font off by omega), hcount, List.take_succ_cons,
          List.drop_succ_cons, hrest]
        rfl
      · rw [if_neg hfit, if_neg (show ¬ 0 < w - cwidth font off by omega)]
        rfl

/-- Of three characters of ten columns two fit in twenty-five. -/
theorem gr_textExW_eq_two :
    (gr_textExW (builtinFont 10 18) 4 (7 + 25) [79, 75, 33] 7).1 =
      (gr_textEx (builtinFont 10 18) 4 [79, 75, 33] 7).1.take 2 ++
        (((gr_textEx (builtinFont 10 18) 4 [79, 75, 33] 7).1.drop 2).take 1).map fun r => { r with right := 32 } :=
  gr_textExW_eq [79, 75, 33] 7 25 (by decide) (by decide)

end Codina.Recovery.TextLayout
