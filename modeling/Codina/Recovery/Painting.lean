/-
  What a session of drawing commands leaves on the screen.

  A command is understood as a stroke: what becomes of one colour byte of the screen, told by its row, column
  and channel alone.  A session paints what its strokes do one after another, writes nothing beyond the
  rows of the screen, and beside its pixels only where it clears to a grey.

  What has to be assumed is what the functions do not check: that the images of the font and of an icon
  are as large as they are said to be, that a blit reads a rectangle its source has, and that no `int` they
  compute overflows.
-/
import Codina.Recovery.Blit

namespace Codina.Recovery.Drawing

open Codina.Faults Codina.Faults.Prog Codina.Ints Codina.Raster

variable {g : Globals} {b b₁ b' : Block} {A : Prop}

/-! ## What is painted -/

/-- `f` has become of the colour bytes of the screen.  Bytes beyond its rows are as they were, and so are
    those beside its pixels unless `spill`. -/
structure Painted (d : Geometry) (spill : Prop) (f : Nat × Nat × Nat → Byte → Byte) (b b' : Block) : Prop where
  size : b'.size = b.size
  shown : ∀ t, Grid d.height d.width 3 t → b'.byte (d.byteAt t) = f t (b.byte (d.byteAt t))
  beyond : ∀ a, d.height * d.row_bytes ≤ a → b'.byte a = b.byte a
  beside : ¬ spill → ∀ a, (∀ t, Grid d.height d.width 4 t → a ≠ d.byteAt t) → b'.byte a = b.byte a

theorem painted_self {d : Geometry} : Painted d False (fun _ old => old) b b where
  size := rfl
  shown := fun _ _ => rfl
  beyond := fun _ _ => rfl
  beside := fun _ _ _ => rfl

/-- One painting over another. -/
theorem Painted.over {d : Geometry} {s s' : Prop} {f f' : Nat × Nat × Nat → Byte → Byte}
    (h : Painted d s f b b₁) (h' : Painted d s' f' b₁ b') :
    Painted d (s ∨ s') (fun t old => f' t (f t old)) b b' where
  size := h'.size.trans h.size
  shown := fun t ht => by rw [h'.shown t ht, h.shown t ht]
  beyond := fun a ha => (h'.beyond a ha).trans (h.beyond a ha)
  beside := fun hs a ha =>
    (h'.beside (fun hs' => hs (.inr hs')) a ha).trans (h.beside (fun hs' => hs (.inl hs')) a ha)

theorem Painted.mono {d : Geometry} {s s' : Prop} {f : Nat × Nat × Nat → Byte → Byte}
    (h : Painted d s f b b') (hs : s → s') : Painted d s' f b b' :=
  { h with beside := fun hs' => h.beside fun hx => hs' (hs hx) }

/-- A pixel of the screen lies in its rows. -/
theorem byteAt_inside {d : Geometry} {size : Nat} (hv : d.Valid size) {t : Nat × Nat × Nat}
    (ht : Grid d.height d.width 4 t) : d.byteAt t < d.height * d.row_bytes := by
  obtain ⟨j, i, c⟩ := t
  obtain ⟨hj, hi, hc⟩ := ht
  have hrow : (j + 1) * d.row_bytes ≤ d.height * d.row_bytes := Nat.mul_le_mul_right _ hj
  rw [Nat.add_mul, Nat.one_mul] at hrow
  have hcol : i * 4 + c < d.width * 4 := column_lt hi hc (Nat.le_refl 4)
  have := hv.row
  show 0 + j * d.row_bytes + i * 4 + c < _
  omega

/-- Edits of pixels of the screen paint what they say. -/
theorem painted_of_edits {d : Geometry} {size : Nat} (hv : d.Valid size) {P : Nat × Nat × Nat → Prop}
    {e f : Nat × Nat × Nat → Byte → Byte} (hE : Edits P d.byteAt e b b')
    (hP : ∀ t, P t → Grid d.height d.width 4 t) (hin : ∀ t, P t → f t = e t)
    (hout : ∀ t, Grid d.height d.width 3 t → ¬ P t → ∀ old, f t old = old) : Painted d False f b b' where
  size := hE.size
  shown := by
    intro t ht
    by_cases hPt : P t
    · rw [hE.at_ t hPt, hin t hPt]
    · rw [hout t ht hPt]
      refine hE.off _ fun u hu heq => hPt ?_
      obtain ⟨-, hcol, hc⟩ := hP u hu
      rwa [place_injective (w := d.width) (Nat.le_refl 4) hv.row ht.2.1 (Nat.lt_succ_of_lt ht.2.2) hcol hc heq]
  beyond := fun a ha => hE.off a fun t ht heq => by
    have := byteAt_inside hv (hP t ht)
    omega
  beside := fun _ a ha => hE.off a fun t ht => ha t (hP t ht)

/-! ## `gr_clear` -/

/-- `gr_clear` takes the branch that writes whole rows. -/
def Grey (g : Globals) : Prop := g.gr_current_r = g.gr_current_g ∧ g.gr_current_r = g.gr_current_b

/-- What is left of a row behind its pixels can be computed. -/
theorem skip_eq {size : Nat} (hv : g.gr_draw.Valid size) :
    skip g = pure ((g.gr_draw.row_bytes : Int) - g.gr_draw.width * g.gr_draw.pixel_bytes) := by
  have hrow := hv.row
  have hlong := hv.row_int
  have hbytes : InInt ((g.gr_draw.width : Int) * g.gr_draw.pixel_bytes) := by
    rw [hv.four]
    exact ⟨by omega, by omega⟩
  have hrest : InInt ((g.gr_draw.row_bytes : Int) - g.gr_draw.width * g.gr_draw.pixel_bytes) := by
    rw [hv.four]
    exact ⟨by omega, by omega⟩
  rw [skip, signed_of_inInt hbytes, ret_bind, signed_of_inInt hrest]

/-- **`gr_clear`**: both branches give every pixel the colour; a grey is also written beside them. -/
theorem gr_clear_paints (hv : g.gr_draw.Valid b.size) :
    Ensures A (gr_clear g) (fun _ b' => Painted g.gr_draw (Grey g) (fun t _ => color g t.2.2) b b') b := by
  rw [gr_clear]
  refine ensures_ite (fun hgrey => ?_) fun _ => ?_
  · have hints := hv.rows_int
    have hbytes : InInt ((g.gr_draw.height * g.gr_draw.row_bytes : Nat) : Int) := ⟨by omega, by omega⟩
    rw [← Int.natCast_mul, signed_of_inInt hbytes, ret_bind, Int.toNat_natCast]
    refine ensures_bind (ensures_read (ensures_bind (ensures_require hv.fits (ensures_write ?_))))
    refine ⟨rfl, fun t ht => ?_, fun a ha => if_neg (Nat.not_lt.mpr ha), fun hne => absurd hgrey hne⟩
    refine (if_pos (byteAt_inside hv ⟨ht.1, ht.2.1, Nat.lt_succ_of_lt ht.2.2⟩)).trans ?_
    obtain ⟨-, -, c⟩ := t
    match c with
    | 0 => rfl
    | 1 => exact hgrey.1
    | _ + 2 => exact hgrey.2
  · have hstride : g.gr_draw.width * 4 + g.gr_draw.row_bytes - g.gr_draw.width * g.gr_draw.pixel_bytes =
        g.gr_draw.row_bytes := by
      rw [hv.four]
      exact Nat.add_sub_cancel_left ..
    have hbody : (fun px => do
        walk (· + 4) (putPixel g) g.gr_draw.width px
        let _ ← skip g
        return ()) = walk (· + 4) (putPixel g) g.gr_draw.width := by
      funext px
      rw [skip_eq hv]
      exact bind_unit _
    rw [hstride, hbody]
    refine (rect_edits (x := 0) (y := 0) (e := fun _ _ c _ => color g c) hv rfl (Nat.le_of_eq (Nat.zero_add _))
      (Nat.le_of_eq (Nat.zero_add _)) ?_).mono fun _ b' hE => ?_
    · intro j _ i _ b px _ hpx heq
      rw [pointer_add, pointer_add]
      have hptr : 0 + j * g.gr_draw.row_bytes + i * 4 = px := by
        rw [heq]
        show _ = 0 + (0 + j) * g.gr_draw.row_bytes + (0 + i) * 4 + 0
        rw [Nat.zero_add j, Nat.zero_add i, Nat.add_zero]
      rw [hptr]
      exact pixel_edits _ hpx
    · have hrect : ∀ t, Rect 0 0 g.gr_draw.width g.gr_draw.height t ↔ Grid g.gr_draw.height g.gr_draw.width 3 t := by
        rintro ⟨j, i, c⟩
        unfold Rect Grid
        dsimp only
        omega
      refine (painted_of_edits hv hE (fun t ht => ?_) (fun _ _ => rfl) fun t ht hnot => ?_).mono False.elim
      · obtain ⟨hj, hi, hc⟩ := (hrect t).mp ht
        exact ⟨hj, hi, Nat.lt_succ_of_lt hc⟩
      · exact absurd ((hrect t).mpr ht) hnot

/-! ## Where each command paints -/

/-- The pixels of a text. -/
def Lettered (g : Globals) (x y : Int) (s : List Byte) (t : Nat × Nat × Nat) : Prop :=
  Strip (x + g.overscan_offset_x) (y + g.overscan_offset_y)
    (cells g (x + g.overscan_offset_x) (y + g.overscan_offset_y) s.length * g.gr_font.cwidth)
    g.gr_font.cheight t

theorem filled_inside {x1 y1 x2 y2 : Int} {t : Nat × Nat × Nat} (h : Filled g x1 y1 x2 y2 t) :
    Grid g.gr_draw.height g.gr_draw.width 4 t := by
  obtain ⟨⟨-, hcorner⟩, hrect, hc⟩ := h
  unfold outside at hcorner
  refine ⟨?_, ?_, Nat.lt_succ_of_lt hc⟩ <;> omega

theorem iconed_inside {icon : GRSurface} {x y : Int} {t : Nat × Nat × Nat} (h : Iconed g icon x y t) :
    Grid g.gr_draw.height g.gr_draw.width 4 t := by
  obtain ⟨-, ⟨-, hcorner⟩, hcols, hrows, hc⟩ := h
  unfold outside at hcorner
  refine ⟨?_, ?_, Nat.lt_succ_of_lt hc⟩ <;> omega

theorem blitted_inside {source : GRSurface} {w h dx dy : Int} {t : Nat × Nat × Nat}
    (ht : Blitted g source w h dx dy t) : Grid g.gr_draw.height g.gr_draw.width 4 t := by
  obtain ⟨⟨-, -, hcorner⟩, hrect, hc⟩ := ht
  unfold outside at hcorner
  refine ⟨?_, ?_, hc⟩ <;> omega

/-- The cells of a text end before the right edge. -/
theorem cells_fit {x y : Int} {n : Nat} (hcw : 0 < g.gr_font.cwidth) (hn : 0 < cells g x y n) :
    x + (cells g x y n * g.gr_font.cwidth : Nat) ≤ g.gr_draw.width ∧
      y + g.gr_font.cheight ≤ g.gr_draw.height := by
  unfold cells at hn ⊢
  by_cases hrows : 0 ≤ x ∧ 0 ≤ y ∧ y + g.gr_font.cheight ≤ g.gr_draw.height
  · rw [if_pos hrows] at hn ⊢
    refine ⟨?_, hrows.2.2⟩
    have hroom := Int.ediv_mul_le ((g.gr_draw.width : Int) - x) (Int.natCast_ne_zero.mpr (Nat.ne_of_gt hcw))
    have hle : (min n (((g.gr_draw.width : Int) - x) / g.gr_font.cwidth).toNat : Nat) * (g.gr_font.cwidth : Int) ≤
        ((g.gr_draw.width : Int) - x) / g.gr_font.cwidth * g.gr_font.cwidth :=
      Int.mul_le_mul_of_nonneg_right (by omega) (Int.natCast_nonneg _)
    rw [Int.natCast_mul]
    omega
  · rw [if_neg hrows] at hn
    exact absurd hn (Nat.lt_irrefl 0)

theorem lettered_inside {x y : Int} {s : List Byte} {t : Nat × Nat × Nat} (hcw : 0 < g.gr_font.cwidth)
    (h : Lettered g x y s t) : Grid g.gr_draw.height g.gr_draw.width 4 t := by
  obtain ⟨hcols, hrows, hc⟩ := h
  have hsome : 0 < cells g (x + g.overscan_offset_x) (y + g.overscan_offset_y) s.length := by
    rcases Nat.eq_zero_or_pos (cells g (x + g.overscan_offset_x) (y + g.overscan_offset_y) s.length) with hz | hp
    · rw [hz, Nat.zero_mul] at hcols
      omega
    · exact hp
  obtain ⟨hwide, hhigh⟩ := cells_fit hcw hsome
  refine ⟨?_, ?_, Nat.lt_succ_of_lt hc⟩ <;> omega

/-! ## Commands -/

inductive Command where
  | color (red green blue a : Byte)
  | clear
  | fill (x1 y1 x2 y2 : Int)
  | text (x y : Int) (s : List Byte) (bold : Bool)
  | texticon (x y : Int) (icon : Option GRSurface)
  | blit (source : Option GRSurface) (sx sy w h dx dy : Int)

/-- A command carried out, and the globals after it. -/
def issue (swap : Bool) (g : Globals) : Command → Prog Block Globals
  | .color red green blue a => return gr_color g swap red green blue a
  | .clear => do gr_clear g; return g
  | .fill x1 y1 x2 y2 => do gr_fill g x1 y1 x2 y2; return g
  | .text x y s bold => do gr_text g x y s bold; return g
  | .texticon x y icon => do gr_texticon g x y icon; return g
  | .blit source sx sy w h dx dy => do gr_blit g source sx sy w h dx dy; return g

def session (swap : Bool) : List Command → Globals → Prog Block Globals
  | [], g => return g
  | c :: cs, g => do
    let g ← issue swap g c
    session swap cs g

/-- The globals after a command. -/
def recolored (swap : Bool) (g : Globals) : Command → Globals
  | .color red green blue a => gr_color g swap red green blue a
  | _ => g

open Classical in
/-- **The stroke of a command**: what becomes of a colour byte of the screen. -/
noncomputable def stroke (g : Globals) (c : Command) (t : Nat × Nat × Nat) (old : Byte) : Byte :=
  match c with
  | .color _ _ _ _ => old
  | .clear => color g t.2.2
  | .fill x1 y1 x2 y2 => if Filled g x1 y1 x2 y2 t then mix g.gr_current_a.toNat (color g t.2.2) old else old
  | .text x y s bold =>
    match g.gr_font.texture with
    | none => old
    | some texture =>
      if Lettered g x y s t then
        mix (coverage g (texel g texture (bold ∧ texture.height ≠ g.gr_font.cheight)
          (x + g.overscan_offset_x) (y + g.overscan_offset_y) s t)) (color g t.2.2) old
      else old
  | .texticon x y (some icon) =>
    if Iconed g icon x y t then mix (coverage g (iconTexel g icon x y t)) (color g t.2.2) old else old
  | .blit (some source) sx sy w h dx dy =>
    if Blitted g source w h dx dy t then blitTexel g source sx sy dx dy t else old
  | _ => old

/-- The strokes of a session, one after another. -/
noncomputable def strokes (swap : Bool) : List Command → Globals → Nat × Nat × Nat → Byte → Byte
  | [], _, _, old => old
  | c :: cs, g, t, old => strokes swap cs (recolored swap g c) t (stroke g c t old)

/-- A session clears to a grey. -/
def Spills (swap : Bool) : List Command → Globals → Prop
  | [], _ => False
  | c :: cs, g => (c = .clear ∧ Grey g) ∨ Spills swap cs (recolored swap g c)

/-! ## What is assumed -/

/-- The screen holds its rows, and the font its images; `int`s can tell where these lie. -/
structure Ready (g : Globals) (size : Nat) : Prop where
  valid : g.gr_draw.Valid size
  font : ∀ texture, g.gr_font.texture = some texture →
    FontFits g texture ∧ 0 < g.gr_font.cwidth ∧ 0 < g.gr_font.cheight ∧
    ∀ (bold : Bool) (ch : Byte), Images texture (glyph g texture (bold ∧ texture.height ≠ g.gr_font.cheight) ch)
      g.gr_font.cwidth g.gr_font.cheight

/-- No `int` that is computed from the coordinates overflows, an icon has its pixels, and a blit reads what
    its source has. -/
def Command.Sound (g : Globals) : Command → Prop
  | .fill x1 y1 x2 y2 => FillFits g x1 y1 x2 y2
  | .text x y _ _ => OffsetFits g x y
  | .texticon x y (some icon) =>
    icon.pixel_bytes = 1 → IconFits g icon x y ∧ Images icon 0 icon.width icon.height
  | .blit (some source) sx sy w h dx dy =>
    (g.gr_draw.pixel_bytes = source.pixel_bytes → BlitFits g source sx sy w h dx dy) ∧
      (Accepted g source w h dx dy → 0 < h → Readable source sx sy w h)
  | _ => True

/-- `gr_init_font`, where the resource is found: 96 images in a row, two rows of them. -/
def gr_init_font (texture : GRSurface) : GRFont :=
  { texture := some texture, cwidth := texture.width / 96, cheight := texture.height / 2 }

/-- The font of the resources has its images, regular and bold. -/
theorem ready_of_resource {texture : GRSurface} {size : Nat} (hfont : g.gr_font = gr_init_font texture)
    (hv : g.gr_draw.Valid size) (hwidth : 96 ≤ texture.width) (hheight : 2 ≤ texture.height)
    (hrow : texture.width ≤ texture.row_bytes)
    (hsize : texture.height * texture.row_bytes ≤ texture.data.size)
    (hints : texture.height * texture.row_bytes < 2147483648)
    (hwide : g.gr_draw.width + texture.width < 2147483648)
    (hhigh : g.gr_draw.height + texture.height < 2147483648) : Ready g size := by
  refine ⟨hv, fun texture' ht => ?_⟩
  rw [hfont] at ht ⊢
  obtain rfl : texture = texture' := Option.some.inj ht
  have hcw : (gr_init_font texture).cwidth = texture.width / 96 := rfl
  have hch : (gr_init_font texture).cheight = texture.height / 2 := rfl
  have hfits : FontFits g texture := by
    have hcell : (gr_init_font texture).cheight * texture.row_bytes ≤ texture.height * texture.row_bytes :=
      Nat.mul_le_mul_right _ (by omega)
    rw [FontFits, hfont]
    omega
  refine ⟨hfits, by omega, by omega, fun bold ch j hj i hi => ?_⟩
  -- the image lies in row `r` of the texture, and before its end
  have hplace : ∃ r k, r < texture.height ∧ k < texture.row_bytes ∧
      glyph g texture (bold ∧ texture.height ≠ (gr_init_font texture).cheight) ch + j * texture.row_bytes + i =
        r * texture.row_bytes + k := by
    rw [glyph, hfont]
    have hmul := Nat.mul_le_mul_right (gr_init_font texture).cwidth (letter_le ch)
    by_cases hb : bold = true ∧ texture.height ≠ (gr_init_font texture).cheight
    · refine ⟨(gr_init_font texture).cheight + j, letter ch * (gr_init_font texture).cwidth + i,
        by omega, by omega, ?_⟩
      rw [if_pos hb, Nat.add_mul]
      omega
    · refine ⟨j, letter ch * (gr_init_font texture).cwidth + i, by omega, by omega, ?_⟩
      rw [if_neg hb]
      omega
  obtain ⟨r, k, hr, hk, heq⟩ := hplace
  have hend : (r + 1) * texture.row_bytes ≤ texture.height * texture.row_bytes := Nat.mul_le_mul_right _ hr
  rw [Nat.add_mul, Nat.one_mul] at hend
  omega

theorem recolored_gr_draw (swap : Bool) (c : Command) : (recolored swap g c).gr_draw = g.gr_draw := by
  cases c <;> cases swap <;> rfl

theorem recolored_ready {swap : Bool} {c : Command} {size : Nat} (h : Ready g size) :
    Ready (recolored swap g c) size := by
  cases c <;> cases swap <;> exact ⟨h.valid, h.font⟩

theorem recolored_sound {swap : Bool} {c c' : Command} (h : c'.Sound g) : c'.Sound (recolored swap g c) := by
  cases c <;> cases swap <;> exact h

/-! ## Sessions -/

/-- **One command** paints its stroke. -/
theorem issue_paints (swap : Bool) {c : Command} (hr : Ready g b.size) (hs : c.Sound g) :
    Ensures A (issue swap g c) (fun g' b' => g' = recolored swap g c ∧
      Painted g.gr_draw (c = .clear ∧ Grey g) (stroke g c) b b') b := by
  have hv := hr.valid
  cases c with
  | color red green blue a => exact ensures_pure ⟨rfl, painted_self.mono False.elim⟩
  | clear =>
    refine (gr_clear_paints hv).bind fun _ b' hp => ensures_pure ⟨rfl, hp.mono fun hgrey => ⟨rfl, hgrey⟩⟩
  | fill x1 y1 x2 y2 =>
    refine (gr_fill_paints hv hs).bind fun _ b' hE => ensures_pure ⟨rfl, ?_⟩
    refine (painted_of_edits hv hE (fun t => filled_inside) (fun t ht => ?_) fun t _ ht old => ?_).mono False.elim
    · exact funext fun old => if_pos ht
    · exact if_neg ht
  | text x y s bold =>
    cases ht : g.gr_font.texture with
    | none =>
      have hstroke : stroke g (.text x y s bold) = fun _ old => old := by
        funext t old
        simp only [stroke, ht]
      have hnothing : gr_text g x y s bold = pure () := by
        unfold gr_text
        rw [ht]
      show Ensures A (gr_text g x y s bold >>= fun _ => pure g) _ b
      rw [hnothing, hstroke]
      exact ensures_pure ⟨rfl, painted_self.mono False.elim⟩
    | some texture =>
      obtain ⟨hf, hcw, hch, him⟩ := hr.font texture ht
      refine (gr_text_draws ht hv hs hf hcw hch (him bold)).bind fun _ b' hE =>
        ensures_pure ⟨rfl, ?_⟩
      refine (painted_of_edits hv hE (fun t => lettered_inside hcw) (fun t hin => ?_)
        fun t _ hout old => ?_).mono False.elim
      · funext old
        simp only [stroke, ht]
        exact if_pos hin
      · simp only [stroke, ht]
        exact if_neg hout
  | texticon x y icon =>
    cases icon with
    | none => exact ensures_pure ⟨rfl, painted_self.mono False.elim⟩
    | some icon =>
      refine (gr_texticon_draws x y hv (fun hone => (hs hone).1) fun hone => (hs hone).2).bind fun _ b' hE => ensures_pure ⟨rfl, ?_⟩
      refine (painted_of_edits hv hE (fun t => iconed_inside) (fun t ht => ?_) fun t _ ht old => ?_).mono False.elim
      · exact funext fun old => if_pos ht
      · exact if_neg ht
  | blit source sx sy w h dx dy =>
    cases source with
    | none => exact ensures_pure ⟨rfl, painted_self.mono False.elim⟩
    | some source =>
      refine (gr_blit_copies hv hs.1 hs.2).bind fun _ b' hE => ensures_pure ⟨rfl, ?_⟩
      refine (painted_of_edits hv hE (fun t => blitted_inside) (fun t ht => ?_) fun t _ ht old => ?_).mono False.elim
      · exact funext fun old => if_pos ht
      · exact if_neg ht

/-- **Drawing is painting.**  A session of commands, from any screen: nothing it does is undefined, every
    colour byte of the screen becomes what the strokes of the commands make of it, one after another, and
    no other byte changes, but for those beside the pixels where it clears to a grey. -/
theorem drawing_is_painting (swap : Bool) (cs : List Command) {g : Globals} {b : Block}
    (hr : Ready g b.size) (hs : ∀ c ∈ cs, c.Sound g) :
    Ensures False (session swap cs g) (fun g' b' => g'.gr_draw = g.gr_draw ∧
      Painted g.gr_draw (Spills swap cs g) (strokes swap cs g) b b') b := by
  induction cs generalizing g b with
  | nil => exact ensures_pure ⟨rfl, painted_self⟩
  | cons c cs ih =>
    refine (issue_paints swap hr (hs c (List.mem_cons_self ..))).bind ?_
    rintro _ b₁ ⟨rfl, hpaint⟩
    have hrest := ih (g := recolored swap g c) (b := b₁) (hpaint.size ▸ recolored_ready hr)
      fun c' hc' => recolored_sound (hs c' (List.mem_cons_of_mem _ hc'))
    rw [recolored_gr_draw] at hrest
    exact hrest.mono fun _ b' ⟨hdraw, hpaints⟩ => ⟨hdraw, hpaint.over hpaints⟩

/-- A font of one pixel a character. -/
def smallTexture : GRSurface where
  width := 96
  height := 2
  row_bytes := 96
  pixel_bytes := 1
  data := ⟨192, fun a => BitVec.ofNat 8 a⟩

/-- A screen of two rows of four pixels, each row with four bytes to spare. -/
def smallScreen : Globals where
  gr_font := gr_init_font smallTexture
  overscan_offset_x := 0
  overscan_offset_y := 0
  gr_current_r := 255
  gr_current_g := 255
  gr_current_b := 255
  gr_current_a := 255
  gr_draw := ⟨4, 2, 20, 4⟩

/-- `"OK"` in half a red over a white screen. -/
def smallSession : List Command := [.clear, .color 255 0 0 128, .fill 1 0 3 2, .text 0 1 [79, 75] true]

theorem smallScreen_ready : Ready smallScreen 40 :=
  ready_of_resource (show smallScreen.gr_font = gr_init_font smallTexture from rfl) ⟨rfl, by decide, by decide, by decide, by decide⟩ (by decide) (by decide) (by decide) (by decide)
    (by decide) (by decide) (by decide)

theorem smallSession_sound : ∀ c ∈ smallSession, c.Sound smallScreen := by
  intro c hc
  simp only [smallSession, List.mem_cons, List.not_mem_nil, or_false] at hc
  rcases hc with rfl | rfl | rfl | rfl
  · trivial
  · trivial
  · exact ⟨⟨by decide, by decide⟩, ⟨by decide, by decide⟩, fun _ => ⟨by decide, by decide⟩⟩
  · exact ⟨by decide, by decide⟩

section

-- the session is not to be run where its type is looked at
attribute [local irreducible] Ensures

theorem drawing_is_painting_small : ∃ g' b', session false smallSession smallScreen ⟨40, fun _ => 0⟩ =
    .returns (g', b') ∧ Painted smallScreen.gr_draw (Spills false smallSession smallScreen)
      (strokes false smallSession smallScreen) ⟨40, fun _ => 0⟩ b' := by
  have h := drawing_is_painting false smallSession (b := ⟨40, fun _ => 0⟩) smallScreen_ready smallSession_sound
  obtain ⟨g', b', hret, -, hpaint⟩ := h.returned
  exact ⟨g', b', hret, hpaint⟩

end

end Codina.Recovery.Drawing
