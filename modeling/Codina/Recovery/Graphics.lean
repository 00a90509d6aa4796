/-
  The recovery's graphics.cpp: which backend draws.

  `gr_init` runs `gr_init_real` twice.  That function is written for fresh globals: it asks ADF for a
  surface, and DRM and the framebuffer device if `gr_draw` is still null.  In the second round `gr_draw`
  is the surface of the first one.  If `open_adf` gives nothing then, `gr_backend` is null, no other
  backend is tried, and `gr_flip` follows the null pointer.  And `gr_init` returns 0 whatever its rounds
  return.

  So all is well exactly when `open_adf` gives a backend in every round that finds a surface left from
  before, and the second round of every call ends with one (`gr_init_good_iff`).
-/
import Mathlib.Tactic.Common

namespace Codina.Recovery.Graphics

/-! ## The globals -/

inductive Backend where
  /-- `open_adf` makes a new one each time. -/
  | adf (number : Nat)
  | drm
  | fbdev
deriving DecidableEq

/-- A surface, and the backend that gave it. -/
structure GRSurface where
  owner : Backend
  width : Int
  height : Int

/-- A surface as a backend answers it; `none` is NULL. -/
abbrev Answer := Option (Int × Int)

def surface (backend : Backend) (answer : Answer) : Option GRSurface :=
  answer.map fun size => ⟨backend, size.1, size.2⟩

/-- What one `gr_init_real` is answered. -/
structure Round where
  /-- `open_adf`, and the backend's `init`. -/
  adf : Option Answer
  drm : Answer
  fbdev : Answer
  /-- The two `flip`s at the end. -/
  flips : Answer × Answer

structure Globals where
  gr_backend : Option Backend := none
  gr_draw : Option GRSurface := none
  overscan_offset_x : Int := 0
  overscan_offset_y : Int := 0
  /-- The calls of `open_adf` that gave a backend. -/
  opened : Nat := 0

/-! ## `gr_init` -/

/-- `none` is a null pointer followed. -/
def gr_flip (answer : Answer) (g : Globals) : Option Globals :=
  g.gr_backend.map fun backend => { g with gr_draw := surface backend answer }

def tryAdf (r : Round) (g : Globals) : Globals :=
  match r.adf with
  | none => { g with gr_backend := none }
  | some init => { g with
      gr_backend := some (.adf g.opened)
      gr_draw := surface (.adf g.opened) init
      opened := g.opened + 1 }

/-- `if (!gr_draw)`, try this backend. -/
def tryNext (backend : Backend) (init : Answer) (g : Globals) : Globals :=
  if g.gr_draw.isNone then { g with gr_backend := some backend, gr_draw := surface backend init }
  else g

variable (overscan_percent : Int)

def gr_init_real (r : Round) (g : Globals) : Option (Int × Globals) :=
  let g := tryNext .fbdev r.fbdev (tryNext .drm r.drm (tryAdf r g))
  match g.gr_draw with
  | none => some (-1, g)
  | some draw =>
    let g := { g with
      overscan_offset_x := (draw.width * overscan_percent).tdiv 100
      overscan_offset_y := (draw.height * overscan_percent).tdiv 100 }
    (gr_flip r.flips.1 g).bind fun g => (gr_flip r.flips.2 g).map fun g => (0, g)

/-- The two rounds of one call. -/
structure Call where
  first : Round
  second : Round

def gr_init (c : Call) (g : Globals) : Option (Int × Globals) :=
  (gr_init_real overscan_percent c.first g).bind fun (_, g) =>
    (gr_init_real overscan_percent c.second g).map fun (_, g) => (0, g)

/-! ## What should hold -/

/-- The backend is the one that the surface comes from. -/
def Matching (g : Globals) : Prop := ∀ draw, g.gr_draw = some draw → g.gr_backend = some draw.owner

/-- No call follows a null pointer, and after each one the backend is that of the surface, and there is
    a surface if the call has returned 0. -/
def Good (g : Globals) : List Call → Prop
  | [] => True
  | c :: calls => ∃ ret g', gr_init overscan_percent c g = some (ret, g') ∧ Matching g' ∧
      (ret = 0 → g'.gr_draw ≠ none) ∧ Good g' calls

/-- Some backend's `init` gives a surface, and so does the last `flip`. -/
def Round.Leaves (r : Round) : Prop :=
  (r.adf.join ≠ none ∨ r.drm ≠ none ∨ r.fbdev ≠ none) ∧ r.flips.2 ≠ none

instance (r : Round) : Decidable r.Leaves := inferInstanceAs (Decidable (_ ∧ _))

/-- `open_adf` gives a backend where there is a surface from before, which `drawn` tells for the first
    round; and the second round of each call leaves a surface. -/
def Clean : Bool → List Call → Prop
  | _, [] => True
  | drawn, c :: calls => (drawn = true → c.first.adf ≠ none) ∧
      (c.first.Leaves → c.second.adf ≠ none) ∧ c.second.Leaves ∧ Clean true calls

/-! ## One round -/

theorem surface_eq_none {backend : Backend} {answer : Answer} :
    surface backend answer = none ↔ answer = none := Option.map_eq_none_iff

/-- A surface just given is its backend's. -/
theorem matching_surface {g : Globals} {backend : Backend} {answer : Answer}
    (hb : g.gr_backend = some backend) (hd : g.gr_draw = surface backend answer) : Matching g := by
  intro draw hdraw
  obtain ⟨size, _, rfl⟩ := Option.map_eq_some_iff.mp (hd.symm.trans hdraw)
  exact hb

theorem matching_tryAdf {r : Round} {g : Globals} (h : g.gr_draw ≠ none → r.adf ≠ none) :
    Matching (tryAdf r g) ∧ ((tryAdf r g).gr_draw = none ↔ r.adf.join = none) := by
  unfold tryAdf
  cases hadf : r.adf with
  | none =>
    have hnone : g.gr_draw = none := by
      by_contra hdraw
      exact h hdraw hadf
    exact ⟨fun draw hdraw => absurd (hnone.symm.trans hdraw) (by simp), by simpa using hnone⟩
  | some init => exact ⟨matching_surface rfl rfl, surface_eq_none⟩

theorem matching_tryNext {g : Globals} (backend : Backend) (init : Answer) (h : Matching g) :
    Matching (tryNext backend init g) ∧
      ((tryNext backend init g).gr_draw = none ↔ g.gr_draw = none ∧ init = none) := by
  unfold tryNext
  cases hd : g.gr_draw with
  | none => exact ⟨matching_surface rfl rfl, by simpa using surface_eq_none⟩
  | some draw =>
    rw [if_neg (by simp)]
    exact ⟨h, by simp [hd]⟩

/-- Without ADF and with a surface left from before, the round follows a null pointer. -/
theorem gr_init_real_stale {r : Round} {g : Globals} (hdraw : g.gr_draw ≠ none)
    (hadf : r.adf = none) : gr_init_real overscan_percent r g = none := by
  obtain ⟨draw, hd⟩ := Option.ne_none_iff_exists'.mp hdraw
  unfold gr_init_real tryAdf
  simp only [hadf, hd]
  rfl

/-- **Every other round** ends with a backend that matches. -/
theorem gr_init_real_spec {r : Round} {g : Globals} (h : g.gr_draw ≠ none → r.adf ≠ none) :
    ∃ ret g', gr_init_real overscan_percent r g = some (ret, g') ∧ Matching g' ∧
      (g'.gr_draw ≠ none ↔ r.Leaves) := by
  obtain ⟨hm₁, hn₁⟩ := matching_tryAdf h
  obtain ⟨hm₂, hn₂⟩ := matching_tryNext .drm r.drm hm₁
  obtain ⟨hm₃, hn₃⟩ := matching_tryNext .fbdev r.fbdev hm₂
  unfold gr_init_real
  generalize tryNext .fbdev r.fbdev (tryNext .drm r.drm (tryAdf r g)) = g₃ at hm₃ hn₃ ⊢
  rw [hn₂, hn₁] at hn₃
  cases hd : g₃.gr_draw with
  | none =>
    refine ⟨-1, g₃, by simp only [hd], hm₃, ?_⟩
    obtain ⟨⟨hadf, hdrm⟩, hfbdev⟩ := hn₃.mp hd
    simp [hd, Round.Leaves, hadf, hdrm, hfbdev]
  | some draw =>
    have hb := hm₃ draw hd
    have hinit : r.adf.join ≠ none ∨ r.drm ≠ none ∨ r.fbdev ≠ none := by
      by_contra hno
      simp only [not_or, not_not] at hno
      rw [hn₃.mpr ⟨⟨hno.1, hno.2.1⟩, hno.2.2⟩] at hd
      exact absurd hd (by simp)
    simp only [hd, gr_flip, hb, Option.map_some, Option.bind_some]
    refine ⟨0, _, rfl, matching_surface rfl rfl, ?_⟩
    show surface draw.owner r.flips.2 ≠ none ↔ _
    rw [Ne, surface_eq_none]
    exact ⟨fun hflip => ⟨hinit, hflip⟩, And.right⟩

/-! ## All calls -/

/-- No round of the call starts with a surface and gets no ADF backend. -/
def Fresh (c : Call) (g : Globals) : Prop :=
  (g.gr_draw ≠ none → c.first.adf ≠ none) ∧ (c.first.Leaves → c.second.adf ≠ none)

/-- **A call whose rounds are fresh** returns 0 and ends with a backend that matches. -/
theorem gr_init_spec {c : Call} {g : Globals} (h : Fresh c g) :
    ∃ g', gr_init overscan_percent c g = some (0, g') ∧ Matching g' ∧
      (g'.gr_draw ≠ none ↔ c.second.Leaves) := by
  obtain ⟨ret₁, g₁, he₁, _, hleaves₁⟩ := gr_init_real_spec overscan_percent h.1
  obtain ⟨ret₂, g₂, he₂, hm₂, hleaves₂⟩ :=
    gr_init_real_spec overscan_percent fun hd => h.2 (hleaves₁.mp hd)
  refine ⟨g₂, ?_, hm₂, hleaves₂⟩
  unfold gr_init
  rw [he₁, Option.bind_some]
  simp only [he₂, Option.map_some]

/-- Any other call follows a null pointer. -/
theorem gr_init_null {c : Call} {g : Globals} (h : ¬ Fresh c g) :
    gr_init overscan_percent c g = none := by
  unfold gr_init
  by_cases h₁ : g.gr_draw ≠ none → c.first.adf ≠ none
  · obtain ⟨ret₁, g₁, he₁, _, hleaves₁⟩ := gr_init_real_spec overscan_percent h₁
    have h₂ : ¬ (c.first.Leaves → c.second.adf ≠ none) := fun h₂ => h ⟨h₁, h₂⟩
    simp only [Classical.not_imp, not_not] at h₂
    rw [he₁, Option.bind_some]
    simp only [gr_init_real_stale _ (hleaves₁.mpr h₂.1) h₂.2, Option.map_none]
  · simp only [Classical.not_imp, not_not] at h₁
    rw [gr_init_real_stale _ h₁.1 h₁.2]
    rfl

theorem good_iff (calls : List Call) : ∀ g : Globals,
    Good overscan_percent g calls ↔ Clean g.gr_draw.isSome calls := by
  induction calls with
  | nil => exact fun _ => Iff.rfl
  | cons c calls ih =>
    intro g
    constructor
    · rintro ⟨ret, g', he, _, hret, hgood⟩
      have hfresh : Fresh c g := by
        by_contra hnot
        rw [gr_init_null overscan_percent hnot] at he
        exact absurd he (by simp)
      obtain ⟨g₂, he₂, _, hleaves⟩ := gr_init_spec overscan_percent hfresh
      obtain ⟨rfl, rfl⟩ := Prod.mk.inj (Option.some.inj (he₂.symm.trans he))
      have hdrawn := hret rfl
      have hclean := (ih g₂).mp hgood
      rw [Option.isSome_iff_ne_none.mpr hdrawn] at hclean
      exact ⟨fun hd => hfresh.1 (Option.isSome_iff_ne_none.mp hd), hfresh.2, hleaves.mp hdrawn,
        hclean⟩
    · rintro ⟨hfirst, hsecond, hleaves, hclean⟩
      have hfresh : Fresh c g := ⟨fun hd => hfirst (Option.isSome_iff_ne_none.mpr hd), hsecond⟩
      obtain ⟨g', he, hm, hl⟩ := gr_init_spec overscan_percent hfresh
      have hdrawn := hl.mpr hleaves
      rw [← Option.isSome_iff_ne_none.mpr hdrawn] at hclean
      exact ⟨0, g', he, hm, fun _ => hdrawn, (ih g').mpr hclean⟩

/-- **Backend and surface match in all calls exactly when** `open_adf` gives a backend in every round
    that finds a surface, and every call's second round ends with one. -/
theorem gr_init_good_iff (overscan_percent : Int) (calls : List Call) :
    Good overscan_percent {} calls ↔ Clean false calls := good_iff overscan_percent calls {}

/-- A device with DRM and no ADF: the second round follows a null pointer.  A device with nothing:
    `gr_init` returns 0 without a surface. -/
theorem two_rounds_fail :
    (gr_init 0 ⟨⟨none, some (480, 800), none, (some (480, 800), some (480, 800))⟩,
        ⟨none, some (480, 800), none, (some (480, 800), some (480, 800))⟩⟩ {}).isNone ∧
    (∃ g, gr_init 0 ⟨⟨none, none, none, (none, none)⟩, ⟨none, none, none, (none, none)⟩⟩ {} =
      some (0, g) ∧ g.gr_draw = none) ∧
    ¬ Good 0 {} [⟨⟨none, none, none, (none, none)⟩, ⟨none, none, none, (none, none)⟩⟩] := by
  refine ⟨rfl, ⟨_, rfl, rfl⟩, ?_⟩
  rintro ⟨ret, g', he, _, hret, _⟩
  cases he
  exact hret rfl rfl

end Codina.Recovery.Graphics
