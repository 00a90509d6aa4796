/-
  What each operation of a vector does to the list of its items.

  `Rep h v l os`: the vector `v` holds exactly the items `l`, beside the other owners `os` of buffers.
  Beyond its items the buffer is SPARE: nothing lives there (or nothing that needs destroying).  So a
  vector that is represented has leaked nothing and holds nothing twice.

  Each specification is a frame rule in `os`: whatever the other vectors hold, they still hold, since
  an operation that writes has made the buffer its own before.
-/
import Codina.Utils.VectorImpl

namespace Codina.Utils.VectorImpl

open Codina.Faults Codina.Faults.Prog Codina.Refcount Codina.Slots Codina.Utils.SharedBuffer

variable {α : Type} {P : Platform} {T : Traits α} {h : Memory α}
  {os : List (Owner (SharedBuffer α))} {a : Nat} {p : SharedBuffer α} {A : Prop}

/-! ## The item type -/

/-- Slots that can be written over: nothing lives in them, or nothing that has to be destroyed. -/
def Spare (T : Traits α) (s : List (Option α)) : Prop := T.HAS_TRIVIAL_DTOR = true ∨ Empty s

theorem spare_replicate (n : Nat) : Spare T (List.replicate n none) := .inr (empty_replicate n)

theorem spare_nil : Spare T [] := .inr empty_nil

theorem spare_append {s t : List (Option α)} : Spare T (s ++ t) ↔ Spare T s ∧ Spare T t := by
  unfold Spare
  rw [empty_append]
  tauto

theorem Spare.take {s : List (Option α)} (hs : Spare T s) (n : Nat) : Spare T (s.take n) :=
  hs.imp_right fun he x hx => he x (List.mem_of_mem_take hx)

theorem Spare.drop {s : List (Option α)} (hs : Spare T s) (n : Nat) : Spare T (s.drop n) :=
  hs.imp_right fun he x hx => he x (List.mem_of_mem_drop hx)

/-- The buffer with other slots. -/
abbrev withSlots (p : SharedBuffer α) (s : List (Option α)) : SharedBuffer α := { p with slots := s }

theorem ensures_fetch {src : Src α} {num : Nat} {xs : List (Option α)} {Q : List (Option α) → Memory α → Prop}
    (hf : fetch src num h = .returns (xs, h)) (hq : Q xs h) : Ensures A (fetch src num) Q h := by
  unfold Ensures
  rw [hf]
  exact hq

theorem fetch_zero (src : Src α) : fetch src 0 h = .returns ([], h) := rfl

/-- Reading items of a live buffer. -/
theorem fetch_inside {c : Cell (SharedBuffer α)} {i num : Nat} {pre mid post : List (Option α)}
    (hc : h.cells a = some c) (hs : c.payload.slots = pre ++ mid ++ post) (hi : pre.length = i)
    (hn : mid.length = num) : fetch (.inside a i) num h = .returns (mid, h) := by
  rw [fetch]
  by_cases h0 : num = 0
  · rw [if_pos h0, List.length_eq_zero_iff.mp (hn.trans h0)]
    rfl
  · rw [if_neg h0]
    have hb : i + num ≤ c.payload.slots.length := by
      rw [hs]
      simp only [List.length_append]
      omega
    have hE : Ensures False (fetch (.inside a i) num) (fun r h' => r = mid ∧ h' = h) h := by
      rw [fetch, if_neg h0]
      exact ensures_bind (ensures_deref hc (ensures_bind (ensures_require hb
        (ensures_pure ⟨slice_of_eq hs hi hn, rfl⟩))))
    rw [fetch, if_neg h0] at hE
    unfold Ensures at hE
    revert hE
    split
    · rename_i r hr
      rintro ⟨rfl, rfl⟩
      exact hr
    · exact False.elim
    · exact False.elim

/-- Reading the caller's own memory. -/
theorem fetch_outside {xs : List α} {num : Nat} (hn : num ≤ xs.length) :
    fetch (.outside xs) num h = .returns ((xs.take num).map some, h) := by
  rw [fetch]
  by_cases h0 : num = 0
  · rw [if_pos h0, h0]
    rfl
  · rw [if_neg h0]
    show andThen (require (num ≤ xs.length)) _ h = _
    rw [andThen, require, if_pos hn]
    rfl

/-- Making values in spare slots of one's own buffer. -/
theorem place_spec {i : Nat} {pre mid post xs : List (Option α)} (hO : Owned h (pts a p :: os))
    (ha : Alone os a) (hs : p.slots = pre ++ mid ++ post) (hi : pre.length = i)
    (hx : xs.length = mid.length) (hm : Spare T mid) :
    Ensures A (place T a i xs)
      (fun _ h' => Owned h' (pts a (withSlots p (pre ++ xs ++ post)) :: os)) h := by
  have hb : i + xs.length ≤ p.slots.length := by
    rw [hs]
    simp only [List.length_append]
    omega
  refine ensures_bind (ensures_deref hO.pts_cell (ensures_bind (ensures_require (Alone.refs ha)
    (ensures_bind (ensures_require hb (ensures_bind (ensures_require ?_ ?_)))))))
  · show _ ∨ Empty (slice p.slots i xs.length)
    rw [slice_of_eq hs hi hx.symm]
    exact hm
  · rw [← overwrite_of_eq hs hi hx]
    exact store_spec hO ha (Alone.refs ha)

theorem noOverlap_of_ne {i num : Nat} {src : Src α} (hne : ∀ b j, src = .inside b j → b ≠ a) :
    NoOverlap a i src num := by
  cases src with
  | outside xs => trivial
  | inside b j => exact .inl (hne b j rfl)

theorem _do_copy_spec {i num : Nat} {src : Src α} {pre mid post : List (Option α)} {xs : List α}
    (hno : NoOverlap a i src num) (hf : fetch src num h = .returns (xs.map some, h)) (hO : Owned h (pts a p :: os))
    (ha : Alone os a) (hs : p.slots = pre ++ mid ++ post) (hi : pre.length = i)
    (hx : xs.length = mid.length) (hm : Spare T mid) :
    Ensures A (_do_copy T a i src num)
      (fun _ h' => Owned h' (pts a (withSlots p (pre ++ xs.map some ++ post)) :: os)) h := by
  have hx : (xs.map some).length = mid.length := by rw [List.length_map, hx]
  refine ensures_bind (ensures_require hno (ensures_ite (fun _ => ?_) fun _ => ?_))
  · exact ensures_bind (ensures_fetch hf (place_spec hO ha hs hi hx hm))
  · exact ensures_bind (ensures_fetch hf (ensures_bind (ensures_require (full_map_some xs)
      (place_spec hO ha hs hi hx hm))))

theorem do_splat_spec {i num : Nat} {item : Src α} {pre mid post : List (Option α)} {x : α}
    (hf : num ≠ 0 → fetch item 1 h = .returns ([some x], h)) (hO : Owned h (pts a p :: os))
    (ha : Alone os a) (hs : p.slots = pre ++ mid ++ post) (hi : pre.length = i)
    (hn : mid.length = num) (hm : Spare T mid) :
    Ensures A (do_splat T a i item num) (fun _ h' =>
      Owned h' (pts a (withSlots p (pre ++ (List.replicate num x).map some ++ post)) :: os)) h := by
  refine ensures_ite (fun h0 => ?_) fun h0 => ?_
  · have hmid : mid = [] := List.length_eq_zero_iff.mp (hn.trans h0)
    refine ensures_pure ?_
    rw [h0, List.replicate_zero, List.map_nil, ← hmid, ← hs]
    exact hO
  · refine ensures_bind (ensures_fetch (hf h0) ?_)
    rw [List.map_replicate]
    exact place_spec hO ha hs hi (by rw [List.length_replicate, hn]) hm

/-- Slots read as items, whatever is in them. -/
theorem mapIdx_some (f : Nat → Option α → α) (s : List (Option α)) :
    (s.mapIdx fun j x => some (f j x)) = (s.mapIdx f).map some := by
  apply List.ext_getElem?
  intro i
  simp [Function.comp_def]

theorem _do_construct_spec {i num : Nat} {pre mid post : List (Option α)}
    (hO : Owned h (pts a p :: os)) (ha : Alone os a) (hs : p.slots = pre ++ mid ++ post)
    (hi : pre.length = i) (hn : mid.length = num) (hm : Spare T mid) :
    Ensures A (_do_construct T a i num) (fun _ h' => ∃ xs : List α, xs.length = num ∧
      (T.HAS_TRIVIAL_CTOR = false → xs = List.replicate num T.value) ∧
      Owned h' (pts a (withSlots p (pre ++ xs.map some ++ post)) :: os)) h := by
  refine ensures_ite (fun ht => ?_) fun _ => ?_
  · refine ensures_bind (ensures_deref hO.pts_cell ?_)
    rw [show slice p.slots i num = mid from slice_of_eq hs hi hn,
      mapIdx_some (fun j x => x.getD (T.junk a (i + j)))]
    have hlen : (mid.mapIdx fun j x => x.getD (T.junk a (i + j))).length = num := by
      rw [List.length_mapIdx, hn]
    refine (store_spec hO ha (Alone.refs ha)).mono fun _ h' hO' => ?_
    refine ⟨_, hlen, fun hf => absurd (ht.symm.trans hf) Bool.noConfusion, ?_⟩
    rw [← overwrite_of_eq hs hi (by rw [List.length_map, hlen, hn])]
    exact hO'
  · refine (place_spec hO ha hs hi (by rw [List.length_replicate, hn]) hm).mono fun _ h' hO' => ?_
    refine ⟨List.replicate num T.value, List.length_replicate, fun _ => rfl, ?_⟩
    rw [List.map_replicate]
    exact hO'

theorem put_eq_self {c : Cell (SharedBuffer α)} (hc : h.cells a = some c) : h.put a c = h := by
  show Heap.mk _ _ = Heap.mk _ _
  rw [← hc, Function.update_eq_self]

/-- Destroying items leaves spare slots, whoever counts as the owner. -/
theorem _do_destroy_cell {c : Cell (SharedBuffer α)} {i num : Nat} {pre post : List (Option α)}
    {xs : List α} (hc : h.cells a = some c) (h1 : c.refs ≤ 1)
    (hs : c.payload.slots = pre ++ xs.map some ++ post) (hi : pre.length = i) (hn : xs.length = num) :
    Ensures A (_do_destroy T a i num) (fun _ h' => ∃ mid, mid.length = num ∧ Spare T mid ∧
      h' = h.put a { c with payload := withSlots c.payload (pre ++ mid ++ post) }) h := by
  refine ensures_ite (fun ht => ?_) fun _ => ?_
  · refine ensures_pure ⟨xs.map some, by rw [List.length_map, hn], .inl ht, ?_⟩
    rw [← hs]
    exact (put_eq_self hc).symm
  · have hx : (xs.map some).length = num := by rw [List.length_map, hn]
    refine ensures_bind (ensures_deref hc (ensures_bind (ensures_require h1 (ensures_bind
      (ensures_require ?_ (ensures_bind (ensures_require ?_ (ensures_store ?_))))))))
    · rw [hs]
      simp only [List.length_append]
      omega
    · rw [slice_of_eq hs hi hx]
      exact full_map_some xs
    · refine ⟨List.replicate num none, List.length_replicate, spare_replicate num, ?_⟩
      rw [overwrite_of_eq hs hi (by rw [List.length_replicate, hx])]

theorem _do_destroy_spec {i num : Nat} {pre post : List (Option α)} {xs : List α}
    (hO : Owned h (pts a p :: os)) (ha : Alone os a) (hs : p.slots = pre ++ xs.map some ++ post)
    (hi : pre.length = i) (hn : xs.length = num) :
    Ensures A (_do_destroy T a i num) (fun _ h' => ∃ mid, mid.length = num ∧ Spare T mid ∧
      Owned h' (pts a (withSlots p (pre ++ mid ++ post)) :: os)) h := by
  refine (_do_destroy_cell hO.pts_cell (Nat.le_of_eq (Alone.refs ha)) hs hi hn).mono ?_
  rintro - h' ⟨mid, hlen, hm, rfl⟩
  refine ⟨mid, hlen, hm, ?_⟩
  rw [Alone.refs ha]
  exact hO.write hO.pts_cell (Alone.refs ha) rfl

/-- Writing into the middle of a part. -/
theorem overwrite_within {s pre w post xs : List (Option α)} {k i : Nat} (hs : s = pre ++ w ++ post)
    (hi : i = pre.length + k) (hk : k + xs.length ≤ w.length) :
    overwrite s i xs = pre ++ w.take k ++ xs ++ (w.drop (k + xs.length) ++ post) := by
  have hcut : s = pre ++ w.take k ++ (w.drop k).take xs.length ++
      (w.drop (k + xs.length) ++ post) := by
    have hw : w = w.take k ++ (w.drop k).take xs.length ++ w.drop (k + xs.length) := by
      rw [← List.drop_drop, List.append_assoc, List.take_append_drop, List.take_append_drop]
    calc s = pre ++ w ++ post := hs
      _ = pre ++ (w.take k ++ (w.drop k).take xs.length ++ w.drop (k + xs.length)) ++ post := by
        rw [← hw]
      _ = _ := by simp only [List.append_assoc]
  refine overwrite_of_eq hcut ?_ ?_
  · rw [List.length_append, List.length_take, hi]
    omega
  · rw [List.length_take, List.length_drop]
    omega

theorem slice_within {s pre w post : List (Option α)} {k n i : Nat} (hs : s = pre ++ w ++ post)
    (hi : i = pre.length + k) (hk : k + n ≤ w.length) : slice s i n = (w.drop k).take n := by
  subst hs hi
  rw [slice, List.append_assoc, List.drop_length_add_append, List.drop_append_of_le_length (by omega),
    List.take_append_of_le_length (by rw [List.length_drop]; omega)]

/-- A move to another place of one's own buffer: out of their slots the items leave spare ones, which
    are the part `v` with the others around the destination. -/
theorem moveItems_spec {dest src num k : Nat} {pre v post : List (Option α)} {xs : List α}
    (hO : Owned h (pts a p :: os)) (ha : Alone os a) (hne : dest ≠ src) (hnum : num ≠ 0)
    (hlen : xs.length = num) (hsrc : slice p.slots src num = xs.map some)
    (hsl : src + num ≤ p.slots.length)
    (hvac : (if T.HAS_TRIVIAL_DTOR then p.slots else
      overwrite p.slots src (List.replicate num none)) = pre ++ v ++ post)
    (hv : Spare T v) (hd : dest = pre.length + k) (hk : k + num ≤ v.length) :
    Ensures A (moveItems T a dest src num) (fun _ h' => Owned h' (pts a (withSlots p
      (pre ++ v.take k ++ xs.map some ++ (v.drop (k + num) ++ post))) :: os)) h := by
  have hdl : dest + num ≤ p.slots.length := by
    have hl := congrArg List.length hvac
    by_cases ht : T.HAS_TRIVIAL_DTOR = true
    · rw [if_pos ht, List.length_append, List.length_append] at hl
      omega
    · rw [if_neg ht, length_overwrite (by rw [List.length_replicate]; exact hsl), List.length_append,
        List.length_append] at hl
      omega
  have hx : (xs.map some).length = num := by rw [List.length_map, hlen]
  rw [moveItems, if_neg hnum, if_neg hne]
  refine ensures_bind (ensures_deref hO.pts_cell (ensures_bind (ensures_require (Alone.refs ha)
    (ensures_bind (ensures_require ⟨hsl, hdl⟩ (ensures_bind (ensures_require ?_
      (ensures_bind (ensures_require ?_ ?_)))))))))
  · show _ ∨ Full (slice p.slots src num)
    rw [hsrc]
    exact .inr (full_map_some xs)
  · rw [slice_within hvac hd hk]
    exact (hv.drop k).take num
  · refine (store_spec hO ha (Alone.refs ha)).mono fun _ h' hO' => ?_
    rw [show slice p.slots src num = xs.map some from hsrc, overwrite_within hvac hd (by rw [hx]; exact hk),
      hx] at hO'
    exact hO'

/-- Whether `do_move_*` is defined: over nothing, by some distance, or for a type moved by `memmove`. -/
def CanMove (T : Traits α) (num distance : Nat) : Prop := num = 0 ∨ distance ≠ 0 ∨ T.trivialMove = true

theorem moveItems_stay {dest : Nat} {num : Nat} (hc : CanMove T num 0) {Q : Unit → Memory α → Prop}
    (hq : Q () h) : Ensures A (moveItems T a dest dest num) Q h := by
  refine ensures_ite (fun _ => ensures_pure hq) fun h0 => ensures_ite (fun _ => ?_) fun hne => absurd rfl hne
  exact ensures_require ((hc.resolve_left h0).resolve_left fun h => h rfl) hq

/-- Moving items up over the spare slots behind them. -/
theorem do_move_forward_spec {dest src num : Nat} {pre sp post : List (Option α)} {xs : List α}
    (hO : Owned h (pts a p :: os)) (ha : Alone os a)
    (hs : p.slots = pre ++ xs.map some ++ (sp ++ post)) (hi : pre.length = src)
    (hn : xs.length = num) (hsp : Spare T sp) (hd : dest = src + sp.length)
    (hc : CanMove T num sp.length) :
    Ensures A (do_move_forward T a dest src num) (fun _ h' => ∃ gap, gap.length = sp.length ∧
      Spare T gap ∧
      Owned h' (pts a (withSlots p (pre ++ gap ++ xs.map some ++ post)) :: os)) h := by
  have hx : (xs.map some).length = num := by rw [List.length_map, hn]
  refine ensures_bind (ensures_require (by omega) ?_)
  by_cases hsp0 : sp.length = 0
  · have hnil := List.length_eq_zero_iff.mp hsp0
    rw [hd, hsp0, Nat.add_zero]
    refine moveItems_stay (hsp0 ▸ hc) ⟨[], rfl, spare_nil, ?_⟩
    rw [List.append_nil]
    rw [hnil, List.nil_append] at hs
    rw [← hs]
    exact hO
  by_cases hnum : num = 0
  · rw [hnum, moveItems, if_pos rfl]
    have hnil := List.length_eq_zero_iff.mp (hx.trans hnum)
    refine ensures_pure ⟨sp, rfl, hsp, ?_⟩
    rw [hnil, List.append_nil] at hs ⊢
    rw [List.append_assoc, ← hs]
    exact hO
  have hbound : src + num ≤ p.slots.length := by
    rw [hs]
    simp only [List.length_append]
    omega
  have hsrc : slice p.slots src num = xs.map some := slice_of_eq hs hi hx
  -- the slots from the items' old place to the end of their new one
  obtain ⟨v, hvl, hv, hvac⟩ : ∃ v : List (Option α), v.length = num + sp.length ∧ Spare T v ∧
      (if T.HAS_TRIVIAL_DTOR then p.slots else overwrite p.slots src (List.replicate num none)) =
        pre ++ v ++ post := by
    by_cases ht : T.HAS_TRIVIAL_DTOR = true
    · refine ⟨xs.map some ++ sp, by rw [List.length_append, hx], .inl ht, ?_⟩
      rw [if_pos ht, hs]
      simp only [List.append_assoc]
    · refine ⟨List.replicate num none ++ sp, by rw [List.length_append, List.length_replicate],
        spare_append.mpr ⟨spare_replicate num, hsp⟩, ?_⟩
      rw [if_neg ht, overwrite_of_eq hs hi (by rw [List.length_replicate, hx])]
      simp only [List.append_assoc]
  refine (moveItems_spec (k := sp.length) hO ha (by omega) hnum hn hsrc hbound hvac hv (by omega)
    (by omega)).mono fun _ h' hO' => ⟨v.take sp.length, ?_, hv.take _, ?_⟩
  · rw [List.length_take]
    omega
  · rw [List.drop_of_length_le (by omega), List.nil_append] at hO'
    exact hO'

/-- Moving items down over the spare slots in front of them. -/
theorem do_move_backward_spec {dest src num : Nat} {pre sp post : List (Option α)} {xs : List α}
    (hO : Owned h (pts a p :: os)) (ha : Alone os a)
    (hs : p.slots = pre ++ sp ++ xs.map some ++ post) (hi : pre.length = dest)
    (hn : xs.length = num) (hsp : Spare T sp) (hd : src = dest + sp.length)
    (hc : CanMove T num sp.length) :
    Ensures A (do_move_backward T a dest src num) (fun _ h' => ∃ gap, gap.length = sp.length ∧
      Spare T gap ∧
      Owned h' (pts a (withSlots p (pre ++ xs.map some ++ (gap ++ post))) :: os)) h := by
  have hx : (xs.map some).length = num := by rw [List.length_map, hn]
  refine ensures_bind (ensures_require (by omega) ?_)
  by_cases hsp0 : sp.length = 0
  · have hnil := List.length_eq_zero_iff.mp hsp0
    rw [hd, hsp0, Nat.add_zero]
    refine moveItems_stay (hsp0 ▸ hc) ⟨[], rfl, spare_nil, ?_⟩
    rw [hnil, List.append_nil] at hs
    rw [List.nil_append, ← hs]
    exact hO
  by_cases hnum : num = 0
  · rw [hnum, moveItems, if_pos rfl]
    have hnil := List.length_eq_zero_iff.mp (hx.trans hnum)
    refine ensures_pure ⟨sp, rfl, hsp, ?_⟩
    rw [hnil, List.append_nil] at hs ⊢
    rw [← List.append_assoc, ← hs]
    exact hO
  have hbound : src + num ≤ p.slots.length := by
    rw [hs]
    simp only [List.length_append]
    omega
  have hpre : (pre ++ sp).length = src := by rw [List.length_append, hi, hd]
  have hsrc : slice p.slots src num = xs.map some := slice_of_eq hs hpre hx
  obtain ⟨v, hvl, hv, hvac⟩ : ∃ v : List (Option α), v.length = sp.length + num ∧ Spare T v ∧
      (if T.HAS_TRIVIAL_DTOR then p.slots else overwrite p.slots src (List.replicate num none)) =
        pre ++ v ++ post := by
    by_cases ht : T.HAS_TRIVIAL_DTOR = true
    · refine ⟨sp ++ xs.map some, by rw [List.length_append, hx], .inl ht, ?_⟩
      rw [if_pos ht, hs]
      simp only [List.append_assoc]
    · refine ⟨sp ++ List.replicate num none, by rw [List.length_append, List.length_replicate],
        spare_append.mpr ⟨hsp, spare_replicate num⟩, ?_⟩
      rw [if_neg ht, overwrite_of_eq hs hpre (by rw [List.length_replicate, hx])]
      simp only [List.append_assoc]
  refine (moveItems_spec (k := 0) hO ha (by omega) hnum hn hsrc hbound hvac hv (by omega)
    (by omega)).mono fun _ h' hO' => ⟨v.drop num, ?_, hv.drop _, ?_⟩
  · rw [List.length_drop]
    omega
  · rw [List.take_zero, List.append_nil, Nat.zero_add] at hO'
    exact hO'

/-! ## Vectors -/

/-- The buffer holds the items `l` in front, and spare slots behind them. -/
structure Holds (P : Platform) (T : Traits α) (l : List α) (p : SharedBuffer α) : Prop where
  fits : Fits T p
  size : p.mSize < SIZE_MAX - P.header
  items : ∃ spare, p.slots = l.map some ++ spare ∧ Spare T spare

/-- A vector as an owner of its buffer. -/
def own (P : Platform) (T : Traits α) (v : VectorImpl) (l : List α) : Owner (SharedBuffer α) :=
  ⟨v.mStorage, Holds P T l⟩

structure Rep (P : Platform) (T : Traits α) (h : Memory α) (v : VectorImpl) (l : List α)
    (os : List (Owner (SharedBuffer α))) : Prop where
  owned : Owned h (own P T v l :: os)
  count : v.mCount = l.length
  null : v.mStorage = none → l = []

variable {v : VectorImpl} {l : List α}

theorem Holds.slots_length {l : List α} (hp : Holds P T l p) : l.length ≤ p.mSize / T.itemSize := by
  obtain ⟨spare, hs, -⟩ := hp.items
  rw [← hp.fits, hs, List.length_append, List.length_map]
  omega

/-- A vector whose buffer is known exactly. -/
theorem Rep.of_pts {n : Nat} (hO : Owned h (pts a p :: os)) (hp : Holds P T l p) (hn : n = l.length) :
    Rep P T h ⟨some a, n⟩ l os where
  owned := hO.weaken fun q hq => by rw [hq]; exact hp
  count := hn
  null := fun h => by cases h

theorem Rep.of_none {n : Nat} (hO : Owned h os) (hn : n = 0) : Rep P T h ⟨none, n⟩ ([] : List α) os where
  owned := hO.cons_none
  count := hn
  null := fun _ => rfl

theorem Rep.perm {os' : List (Owner (SharedBuffer α))} (hr : Rep P T h v l os) (hp : os.Perm os') :
    Rep P T h v l os' := ⟨hr.owned.perm (hp.cons _), hr.count, hr.null⟩

/-- The two shapes of a vector. -/
theorem Rep.cases (hr : Rep P T h v l os) :
    (v = ⟨none, 0⟩ ∧ l = [] ∧ Owned h os) ∨
    ∃ a p, v = ⟨some a, l.length⟩ ∧ Holds P T l p ∧ Owned h (pts a p :: os) := by
  obtain ⟨st, n⟩ := v
  obtain ⟨hO, hn, hnull⟩ := hr
  replace hn : n = l.length := hn
  subst hn
  cases st with
  | none =>
    have hl := hnull rfl
    subst hl
    exact .inl ⟨rfl, rfl, hO.of_none⟩
  | some a =>
    obtain ⟨p, hp, hO⟩ := hO.exact
    exact .inr ⟨a, p, rfl, hp, hO⟩

/-- **`release_storage`**: the vector's share is given up, and with the last one the items and the
    buffer. -/
theorem release_storage_spec (hr : Rep P T h v l os) :
    Ensures A (release_storage T v) (fun _ h' => Owned h' os) h := by
  obtain ⟨rfl, -, hO⟩ | ⟨a, p, rfl, hp, hO⟩ := hr.cases
  · exact ensures_pure hO
  · refine (release_keep_spec hO).bind ?_
    rintro r h₁ (⟨rfl, ha, rfl⟩ | ⟨hr, hO₁⟩)
    · obtain ⟨spare, hs, -⟩ := hp.items
      refine ensures_ite (fun _ => ?_) fun hne => absurd rfl hne
      have hs : (Cell.mk 0 p).payload.slots = [] ++ l.map some ++ spare := hs
      refine (_do_destroy_cell (put_self _) (Nat.zero_le 1) hs rfl rfl).bind ?_
      rintro - h₂ ⟨mid, -, -, rfl⟩
      rw [put_put]
      exact (dealloc_spec hO ha).bind fun _ _ hd => ensures_pure hd.2
    · exact ensures_ite (fun h1 => absurd h1 hr) fun _ => ensures_pure hO₁

/-! ### Storage -/

/-- The items of a buffer, from any of its vectors. -/
theorem fetch_items {l₁ l₂ l₃ : List α} {i num : Nat} {c : Cell (SharedBuffer α)}
    (hp : Holds P T (l₁ ++ l₂ ++ l₃) c.payload) (hc : h.cells a = some c) (hi : l₁.length = i)
    (hn : l₂.length = num) : fetch (.inside a i) num h = .returns (l₂.map some, h) := by
  obtain ⟨spare, hs, -⟩ := hp.items
  have hcut : c.payload.slots = l₁.map some ++ l₂.map some ++ (l₃.map some ++ spare) := by
    rw [hs]
    simp only [List.map_append, List.append_assoc]
  exact fetch_inside hc hcut (by rw [List.length_map, hi]) (by rw [List.length_map, hn])

/-- `l` cut in three. -/
theorem eq_take_slice_drop (l : List α) (i n : Nat) :
    l = l.take i ++ slice l i n ++ l.drop (i + n) := by
  rw [slice, ← List.drop_drop, List.append_assoc, List.take_append_drop, List.take_append_drop]

/-- Reading a range of a vector's items, through its own pointer. -/
theorem fetch_array {os' : List (Owner (SharedBuffer α))} (i num : Nat) (hO : Owned h os')
    (ho : own P T v l ∈ os') (hnull : v.mStorage = none → l = []) (hb : i + num ≤ l.length) :
    fetch (array v i) num h = .returns ((slice l i num).map some, h) := by
  by_cases h0 : num = 0
  · subst h0
    rw [slice_zero]
    exact fetch_zero _
  cases hst : v.mStorage with
  | none =>
    have := congrArg List.length (hnull hst)
    rw [List.length_nil] at this
    omega
  | some a =>
    obtain ⟨c, hc, hp⟩ := hO.cell_of_mem ho hst
    rw [array, hst]
    replace hp : Holds P T l c.payload := hp
    rw [eq_take_slice_drop l i num] at hp
    refine fetch_items hp hc ?_ ?_
    · rw [List.length_take]
      omega
    · rw [slice, List.length_take, List.length_drop]
      omega

/-- A buffer no owner holds is not that of a vector among them. -/
theorem noOverlap_array {os' : List (Owner (SharedBuffer α))} {b i j num : Nat}
    (ho : own P T v l ∈ os') (hb : Alone os' b) : NoOverlap b i (array v j : Src α) num := by
  refine noOverlap_of_ne fun a k hsrc => ?_
  cases hst : v.mStorage with
  | none =>
    rw [array, hst] at hsrc
    cases hsrc
  | some c =>
    rw [array, hst] at hsrc
    cases hsrc
    rintro rfl
    exact hb _ ho hst

/-- The capacity of a vector in a memory. -/
def capOf (T : Traits α) (h : Memory α) (v : VectorImpl) : Nat :=
  match v.mStorage with
  | some a => (h.cells a).elim 0 fun c => c.payload.mSize / T.itemSize
  | none => 0

theorem capOf_pts (hO : Owned h (pts a p :: os)) (n : Nat) :
    capOf T h ⟨some a, n⟩ = p.mSize / T.itemSize := by
  show (h.cells a).elim 0 _ = _
  rw [hO.pts_cell]
  rfl

theorem capacity_spec (hO : Owned h (pts a p :: os)) {n : Nat} {Q : Nat → Memory α → Prop}
    (hq : Q (p.mSize / T.itemSize) h) : Ensures A (capacity T ⟨some a, n⟩) Q h :=
  ensures_bind (ensures_deref hO.pts_cell (ensures_pure hq))

theorem capacity_none {n : Nat} {Q : Nat → Memory α → Prop} (hq : Q 0 h) :
    Ensures A (capacity T ⟨none, n⟩) Q h :=
  ensures_pure hq

/-- The items fit. -/
theorem Rep.le_capOf (hr : Rep P T h v l os) : l.length ≤ capOf T h v := by
  obtain ⟨rfl, rfl, -⟩ | ⟨a, p, rfl, hp, hO⟩ := hr.cases
  · exact Nat.zero_le _
  · rw [capOf_pts hO]
    exact hp.slots_length

/-- A vector holds fewer items than there are bytes. -/
theorem Rep.length_lt (hr : Rep P T h v l os) : l.length < 0x100000000 := by
  obtain ⟨rfl, rfl, -⟩ | ⟨a, p, rfl, hp, hO⟩ := hr.cases
  · exact Nat.zero_lt_succ _
  · have hdiv : p.mSize / T.itemSize ≤ p.mSize := Nat.div_le_self ..
    have hmax : SIZE_MAX - P.header ≤ 0xFFFFFFFF := Nat.sub_le ..
    have hlen := hp.slots_length
    have hsz := hp.size
    omega

/-- A buffer with items in front. -/
theorem holds_blank {size : Nat} {l : List α} (hl : l.length ≤ size / T.itemSize)
    (hsz : size < SIZE_MAX - P.header) :
    Holds P T l (withSlots (blank T size)
      (l.map some ++ List.replicate (size / T.itemSize - l.length) none)) where
  fits := by
    show (_ ++ _ : List _).length = size / T.itemSize
    rw [List.length_append, List.length_map, List.length_replicate]
    omega
  size := hsz
  items := ⟨_, rfl, spare_replicate _⟩

/-- `n` spare slots of which the first `k` are split off. -/
theorem replicate_split {n k : Nat} (hk : k ≤ n) :
    (List.replicate n none : List (Option α)) = List.replicate k none ++ List.replicate (n - k) none := by
  rw [List.replicate_append_replicate, Nat.add_sub_cancel' hk]

/-- **`editArrayImpl`**: the vector is then alone with its buffer, whose size has not changed; it is the
    old one where the vector was alone with that. -/
theorem editArrayImpl_spec (hO : Owned h (pts a p :: os)) (hp : Holds P T l p)
    (hA : Refused P → A) :
    Ensures A (editArrayImpl P T ⟨some a, l.length⟩) (fun v' h' => ∃ b q, v' = ⟨some b, l.length⟩ ∧
      Owned h' (pts b q :: os) ∧ Alone os b ∧ Holds P T l q ∧ q.mSize = p.mSize ∧
      (Alone os a → b = a)) h := by
  refine (attemptEdit_spec hO).bind ?_
  rintro r _ ⟨rfl, ⟨rfl, ha⟩ | ⟨rfl, hshared⟩⟩
  · exact ensures_pure ⟨a, p, rfl, hO, ha, hp, rfl, fun _ => rfl⟩
  refine ensures_bind (ensures_deref hO.pts_cell ?_)
  refine (alloc_spec hO fun hge => absurd hp.size (Nat.not_lt.mpr hge)).bind ?_
  rintro (_ | b) h₁ hr
  · exact ensures_abort (hA hr.2)
  obtain ⟨hO₁, hb, hsz⟩ := hr
  have hrep : Rep P T h₁ ⟨some a, l.length⟩ l (pts b (blank T p.mSize) :: os) :=
    Rep.of_pts (hO₁.perm (List.Perm.swap ..)) hp rfl
  have hf : fetch (array ⟨some a, l.length⟩ 0) l.length h₁ = .returns (l.map some, h₁) := by
    have := fetch_array 0 l.length hrep.owned List.mem_cons_self hrep.null (by omega)
    rwa [slice, List.drop_zero, List.take_length] at this
  have hsplit : (blank T p.mSize).slots = [] ++ List.replicate l.length none ++
      List.replicate (p.mSize / T.itemSize - l.length) none := replicate_split hp.slots_length
  have hno : NoOverlap b 0 (array ⟨some a, l.length⟩ 0 : Src α) l.length := by
    refine .inl fun hab => hb _ List.mem_cons_self ?_
    rw [← hab]
    rfl
  refine (_do_copy_spec hno hf hO₁ hb hsplit rfl List.length_replicate.symm
    (spare_replicate _)).bind fun _ h₂ hO₂ => ?_
  refine (release_storage_spec (Rep.of_pts (hO₂.perm (List.Perm.swap ..)) hp rfl)).bind
    fun _ h₃ hO₃ => ensures_pure ⟨b, _, rfl, hO₃, hb.tail, holds_blank hp.slots_length hsz, rfl,
      fun ha => absurd ha hshared⟩

/-- **`moveStorage`**: a buffer of one's own with the two ranges of items and spare slots between and
    behind them; or, where the request is refused, nothing has happened. -/
theorem moveStorage_spec {size where_ dest src rest : Nat} (hr : Rep P T h v l os)
    (hwd : where_ ≤ dest) (hd : dest + rest ≤ size / T.itemSize) (hw : where_ ≤ l.length)
    (hs : src + rest ≤ l.length) (hA : SIZE_MAX - P.header ≤ size → A) :
    Ensures A (moveStorage P T v size where_ dest src rest) (fun r h' => match r with
      | some v' => ∃ b, v' = { v with mStorage := some b } ∧ Alone (own P T v l :: os) b ∧
          size < SIZE_MAX - P.header ∧
          Owned h' (pts b (withSlots (blank T size) ((l.take where_).map some ++
            List.replicate (dest - where_) none ++ (slice l src rest).map some ++
            List.replicate (size / T.itemSize - dest - rest) none)) :: os)
      | none => Rep P T h' v l os ∧ Refused P) h := by
  have hnull := hr.null
  refine (alloc_spec hr.owned hA).bind ?_
  rintro (_ | b) h₁ hal
  · exact ensures_pure ⟨⟨hal.1, hr.count, hr.null⟩, hal.2⟩
  obtain ⟨hO₁, hb, hsz⟩ := hal
  have hmem : own P T v l ∈ pts b (blank T size) :: own P T v l :: os :=
    List.mem_cons_of_mem _ List.mem_cons_self
  -- the items in front
  have hfront : Ensures A (whenever (where_ ≠ 0) (_do_copy T b 0 (array v 0) where_))
      (fun _ h' => Owned h' (pts b (withSlots (blank T size) ((l.take where_).map some ++
        List.replicate (size / T.itemSize - where_) none)) :: own P T v l :: os)) h₁ := by
    refine ensures_whenever (fun _ => ?_) fun h0 => ?_
    · have hf := fetch_array 0 where_ hO₁ hmem hnull (by omega)
      rw [slice, List.drop_zero] at hf
      have hsplit : (blank T size).slots = [] ++ List.replicate where_ none ++
          List.replicate (size / T.itemSize - where_) none := replicate_split (by omega)
      exact _do_copy_spec (noOverlap_array List.mem_cons_self hb) hf hO₁ hb hsplit rfl
        (by rw [List.length_take, List.length_replicate]; omega) (spare_replicate _)
    · have h0 : where_ = 0 := Decidable.of_not_not h0
      rw [h0, List.take_zero, List.map_nil, List.nil_append, Nat.sub_zero]
      exact hO₁
  refine hfront.bind fun _ h₂ hO₂ => ?_
  -- the items behind
  have hsplit : List.replicate (size / T.itemSize - where_) (none : Option α) =
      List.replicate (dest - where_) none ++ List.replicate rest none ++
        List.replicate (size / T.itemSize - dest - rest) none := by
    simp only [List.replicate_append_replicate]
    congr 1
    omega
  have hback : Ensures A (whenever (rest ≠ 0) (_do_copy T b dest (array v src) rest))
      (fun _ h' => Owned h' (pts b (withSlots (blank T size) ((l.take where_).map some ++
        List.replicate (dest - where_) none ++ (slice l src rest).map some ++
        List.replicate (size / T.itemSize - dest - rest) none)) :: own P T v l :: os)) h₂ := by
    refine ensures_whenever (fun _ => ?_) fun h0 => ?_
    · have hf := fetch_array (P := P) (T := T) src rest hO₂
        (List.mem_cons_of_mem _ List.mem_cons_self) hnull hs
      have hcut : (l.take where_).map some ++
            List.replicate (size / T.itemSize - where_) (none : Option α) =
          (l.take where_).map some ++ List.replicate (dest - where_) none ++
            List.replicate rest none ++ List.replicate (size / T.itemSize - dest - rest) none := by
        rw [hsplit]
        simp only [List.append_assoc]
      refine (_do_copy_spec (noOverlap_array List.mem_cons_self hb) hf hO₂ hb hcut ?_ ?_
        (spare_replicate _)).mono fun _ _ hO₃ => hO₃
      · rw [List.length_append, List.length_map, List.length_take, List.length_replicate]
        omega
      · rw [slice, List.length_take, List.length_drop, List.length_replicate]
        omega
    · have h0 : rest = 0 := Decidable.of_not_not h0
      subst h0
      rw [hsplit] at hO₂
      rw [slice_zero, List.map_nil, List.append_nil]
      rw [List.replicate_zero, List.append_nil, ← List.append_assoc] at hO₂
      exact hO₂
  refine hback.bind fun _ h₃ hO₃ => ?_
  have hrep : Rep P T h₃ v l (_ :: os) := ⟨hO₃.perm (List.Perm.swap ..), hr.count, hr.null⟩
  exact (release_storage_spec hrep).bind fun _ h₄ hO₄ => ensures_pure ⟨b, rfl, hb, hsz, hO₄⟩

/-! ### Growing and shrinking -/

/-- No buffer of the platform can hold `n` items with the room `_grow` leaves behind them. -/
def Oversize (P : Platform) (T : Traits α) (n : Nat) : Prop :=
  SIZE_MAX - P.header ≤ grownCapacity n * T.itemSize

/-- The circumstances under which an operation that leads to `n` items may stop the process. -/
def Exhausted (P : Platform) (T : Traits α) (n : Nat) : Prop := Refused P ∨ Oversize P T n

theorem le_grownCapacity (n : Nat) : n + n / 2 + 1 ≤ grownCapacity n := Nat.le_max_right ..

theorem grownCapacity_mono {m n : Nat} (h : m ≤ n) : grownCapacity m ≤ grownCapacity n := by
  have : m / 2 ≤ n / 2 := Nat.div_le_div_right h
  unfold grownCapacity
  omega

theorem Oversize.mono {m n : Nat} (h : Oversize P T m) (hmn : m ≤ n) : Oversize P T n :=
  Nat.le_trans h (Nat.mul_le_mul_right _ (grownCapacity_mono hmn))

/-- What does not fit in a `size_t` does not fit in memory. -/
theorem oversize_of_lt {k n : Nat} (hk : k ≤ grownCapacity n) (h : SIZE_MAX < k) : Oversize P T n := by
  have h1 : k * 1 ≤ grownCapacity n * T.itemSize := Nat.mul_le_mul hk T.itemSize_pos
  have : SIZE_MAX ≤ grownCapacity n * T.itemSize := by omega
  exact Nat.le_trans (Nat.sub_le ..) this

/-- Room for `amount` items at `where_`: the items around a gap of spare slots. -/
structure Gap (P : Platform) (T : Traits α) (l : List α) (where_ amount : Nat) (p : SharedBuffer α) :
    Prop where
  fits : Fits T p
  size : p.mSize < SIZE_MAX - P.header
  slots : ∃ gap spare, p.slots = (l.take where_).map some ++ gap ++
    ((l.drop where_).map some ++ spare) ∧ gap.length = amount ∧ Spare T gap ∧ Spare T spare

theorem Gap.room {where_ amount : Nat} (hg : Gap P T l where_ amount p) (hw : where_ ≤ l.length) :
    l.length + amount ≤ p.mSize / T.itemSize := by
  obtain ⟨gap, spare, hs, hgap, -, -⟩ := hg.slots
  rw [← hg.fits, hs]
  simp only [List.length_append, List.length_map, List.length_take, List.length_drop, hgap]
  omega

/-- The gap filled with items. -/
theorem Gap.fill {where_ amount : Nat} (hg : Gap P T l where_ amount p) {xs : List α}
    {gap spare : List (Option α)}
    (hs : p.slots = (l.take where_).map some ++ gap ++ ((l.drop where_).map some ++ spare))
    (hx : xs.length = gap.length) (hsp : Spare T spare) :
    Holds P T (l.take where_ ++ xs ++ l.drop where_) (withSlots p ((l.take where_).map some ++
      xs.map some ++ ((l.drop where_).map some ++ spare))) where
  fits := by
    have hlen := hg.fits
    rw [Fits, hs] at hlen
    rw [Fits, ← hlen]
    simp only [List.length_append, List.length_map, hx]
  size := hg.size
  items := ⟨spare, by simp only [List.map_append, List.append_assoc], hsp⟩

/-- Spare slots behind the items are room at the end. -/
theorem Holds.gap {amount : Nat} (hp : Holds P T l p) (hroom : l.length + amount ≤ p.mSize / T.itemSize) :
    Gap P T l l.length amount p where
  fits := hp.fits
  size := hp.size
  slots := by
    obtain ⟨spare, hs, hsp⟩ := hp.items
    have hlen := hp.fits
    rw [Fits, hs, List.length_append, List.length_map] at hlen
    refine ⟨spare.take amount, spare.drop amount, ?_, ?_, hsp.take _, hsp.drop _⟩
    · rw [hs, List.take_length, List.drop_length, List.map_nil, List.nil_append, List.append_assoc,
        List.take_append_drop]
    · rw [List.length_take]
      omega

theorem slice_drop (l : List α) (i : Nat) : slice l i (l.length - i) = l.drop i :=
  List.take_of_length_le (Nat.le_of_eq (List.length_drop ..))

/-- A buffer resized behind the items keeps them. -/
theorem resizeSlots_items {l : List α} {spare : List (Option α)} (size : Nat)
    (hl : l.length ≤ size / T.itemSize) (hsp : Spare T spare) : ∃ spare', Spare T spare' ∧
      resizeSlots T (l.map some ++ spare) size = l.map some ++ spare' := by
  refine ⟨spare.take (size / T.itemSize - l.length) ++
    List.replicate (size / T.itemSize - (l.map some ++ spare).length) none,
    spare_append.mpr ⟨hsp.take _, spare_replicate _⟩, ?_⟩
  rw [resizeSlots, List.take_append, List.take_of_length_le (by rw [List.length_map]; exact hl),
    List.length_map, List.append_assoc]

/-- The capacity after `_grow` made room for `n` items where `cap` was the capacity. -/
def grownTo (cap n : Nat) : Nat := if cap < n then grownCapacity n else cap

/-- The capacity after `_shrink` left `n` items where `cap` was the capacity. -/
def shrunkTo (T : Traits α) (cap n : Nat) : Nat :=
  if n < cap / 2 then max kMinVectorCapacity (n * 2) * T.itemSize % 0x100000000 / T.itemSize else cap

/-- The vector is alone with the buffer at `b`; where there is room in the buffer `old` it was alone
    with, that is `b`. -/
structure Settled (os : List (Owner (SharedBuffer α))) (room : Prop) (old : Option Nat) (b : Nat) :
    Prop where
  alone : Alone os b
  kept : room → ∀ a, old = some a → Alone os a → b = a

/-- What `growStorage` has achieved for `v`: no buffer where none is needed, and room in one's own
    otherwise; `cap` is the capacity before. -/
def Grown (P : Platform) (T : Traits α) (h' : Memory α) (v v' : VectorImpl) (l : List α)
    (where_ amount cap : Nat) (os : List (Owner (SharedBuffer α))) : Prop :=
  (v' = ⟨none, 0⟩ ∧ l = [] ∧ amount = 0 ∧ cap = 0 ∧ Owned h' os) ∨
  ∃ b q, v' = ⟨some b, l.length⟩ ∧ Settled os (l.length + amount ≤ cap) v.mStorage b ∧
    Owned h' (pts b q :: os) ∧ Gap P T l where_ amount q ∧
    q.mSize / T.itemSize = grownTo cap (l.length + amount)

/-- The sizes `_grow` computes, where it gets as far. -/
theorem fatalIf_size {n k : Nat} {Q : Unit → Memory α → Prop} (hn : n ≤ grownCapacity k)
    (hA : Exhausted P T k → A) (hq : n ≤ SIZE_MAX → Q () h) :
    Ensures A (fatalIf (SIZE_MAX < n)) Q h :=
  ensures_fatalIf (fun hlt => hA (.inr (oversize_of_lt hn hlt))) fun hle => hq (Nat.le_of_not_lt hle)

/-- `_grow` into a new buffer. -/
theorem moveStorage_grown {where_ amount cap : Nat} (hr : Rep P T h v l os) (hw : where_ ≤ l.length)
    (hlt : cap < l.length + amount) (hA : Exhausted P T (l.length + amount) → A) :
    Ensures A (moveStorage P T v (grownCapacity (l.length + amount) * T.itemSize) where_
        (where_ + amount) where_ (v.mCount - where_)) (fun r h' => match r with
      | some v' => Grown P T h' v v' l where_ amount cap os
      | none => Rep P T h' v l os ∧ Refused P) h := by
  have hcap := le_grownCapacity (l.length + amount)
  rw [hr.count]
  refine (moveStorage_spec hr (Nat.le_add_right ..) ?_ hw (by omega)
    fun hge => hA (.inr hge)).mono ?_
  · rw [Nat.mul_div_cancel _ T.itemSize_pos]
    omega
  · rintro (_ | v') h' hq
    · exact hq
    · obtain ⟨b, rfl, hb, hsz, hO⟩ := hq
      rw [slice_drop] at hO
      refine .inr ⟨b, _, by rw [hr.count], ⟨hb.tail, fun hle => absurd hlt (Nat.not_lt.mpr hle)⟩, hO,
        ⟨?_, hsz, ?_⟩, ?_⟩
      · show (_ ++ _ : List _).length = grownCapacity (l.length + amount) * T.itemSize / T.itemSize
        rw [Nat.mul_div_cancel _ T.itemSize_pos]
        simp only [List.length_append, List.length_map, List.length_take, List.length_drop,
          List.length_replicate]
        omega
      · rw [Nat.add_sub_cancel_left, List.append_assoc (_ ++ _)]
        exact ⟨_, _, rfl, List.length_replicate, spare_replicate _, spare_replicate _⟩
      · rw [grownTo, if_pos hlt]
        exact Nat.mul_div_cancel _ T.itemSize_pos

/-- `_grow` at the end of a buffer, which is resized behind the items. -/
theorem editResize_grown {a amount cap : Nat} (hO : Owned h (pts a p :: os)) (hp : Holds P T l p)
    (hlt : cap < l.length + amount) (hA : Exhausted P T (l.length + amount) → A) :
    Ensures A (editResize P T a (grownCapacity (l.length + amount) * T.itemSize)) (fun r h' => match r with
      | some b => Grown P T h' ⟨some a, l.length⟩ ⟨some b, l.length⟩ l l.length amount cap os
      | none => Rep P T h' ⟨some a, l.length⟩ l os ∧ Refused P) h := by
  have hcap := le_grownCapacity (l.length + amount)
  have hdiv : grownCapacity (l.length + amount) * T.itemSize / T.itemSize =
      grownCapacity (l.length + amount) := Nat.mul_div_cancel _ T.itemSize_pos
  obtain ⟨spare, hs, hsp⟩ := hp.items
  refine (editResize_spec hO hp.fits hp.size fun hge => hA (.inr hge)).mono ?_
  rintro (_ | b) h₁ hq
  · exact ⟨Rep.of_pts hq.1 hp rfl, hq.2⟩
  obtain ⟨hO₁, hb, hsz⟩ := hq
  obtain ⟨spare', hsp', hs'⟩ := resizeSlots_items (T := T) (l := l)
    (grownCapacity (l.length + amount) * T.itemSize) (by rw [hdiv]; omega) hsp
  have hfits := length_resizeSlots (T := T) p.slots (grownCapacity (l.length + amount) * T.itemSize)
  rw [← hs] at hs'
  have hholds : Holds P T l ⟨grownCapacity (l.length + amount) * T.itemSize, resizeSlots T p.slots
      (grownCapacity (l.length + amount) * T.itemSize)⟩ := ⟨hfits, hsz, spare', hs', hsp'⟩
  refine .inr ⟨b, _, rfl, ⟨hb, fun hle => absurd hlt (Nat.not_lt.mpr hle)⟩, hO₁, hholds.gap ?_, ?_⟩
  · show l.length + amount ≤ grownCapacity (l.length + amount) * T.itemSize / T.itemSize
    rw [hdiv]
    omega
  · rw [grownTo, if_pos hlt]
    exact hdiv

/-- `_grow` in a buffer with room: the items behind are moved up. -/
theorem moveUp_gap {b where_ amount : Nat} (hO : Owned h (pts b p :: os)) (hb : Alone os b)
    (hp : Holds P T l p) (hw : where_ ≤ l.length) (hroom : l.length + amount ≤ p.mSize / T.itemSize)
    (hmove : amount = 0 → CanMove T (l.length - where_) 0) :
    Ensures A (do_move_forward T b (where_ + amount) where_ (l.length - where_)) (fun _ h' =>
      ∃ q, Owned h' (pts b q :: os) ∧ Gap P T l where_ amount q ∧ q.mSize = p.mSize) h := by
  obtain ⟨spare, hs, hsp⟩ := hp.items
  have hlen := hp.fits
  have hspare : amount ≤ spare.length := by
    rw [Fits, hs, List.length_append, List.length_map] at hlen
    omega
  have htake : (spare.take amount).length = amount := by
    rw [List.length_take, Nat.min_eq_left hspare]
  have hcut : p.slots = (l.take where_).map some ++ (l.drop where_).map some ++
      (spare.take amount ++ spare.drop amount) := by
    rw [hs, List.take_append_drop, ← List.map_append, List.take_append_drop]
  refine (do_move_forward_spec hO hb hcut ?_ ?_ (hsp.take amount) ?_ ?_).mono ?_
  · rw [List.length_map, List.length_take]
    omega
  · rw [List.length_drop]
  · rw [htake]
  · rw [htake]
    by_cases h0 : amount = 0
    · exact h0 ▸ hmove h0
    · exact .inr (.inl h0)
  rintro - h₂ ⟨gap, hgl, hg, hO₂⟩
  rw [htake] at hgl
  refine ⟨_, hO₂, ⟨?_, hp.size, gap, spare.drop amount, ?_, hgl, hg, hsp.drop _⟩, rfl⟩
  · show (_ ++ _ : List _).length = p.mSize / T.itemSize
    rw [← hlen, hs]
    simp only [List.length_append, List.length_map, List.length_take, List.length_drop]
    omega
  · show _ ++ _ = _
    rw [List.append_assoc]

/-- **`growStorage`**, by its three ways: a buffer resized behind the items, a new buffer, the old one
    with the items behind moved up. -/
theorem growStorage_spec {where_ amount : Nat} (hr : Rep P T h v l os) (hw : where_ ≤ l.length)
    (hmove : amount = 0 → CanMove T (l.length - where_) 0)
    (hA : Exhausted P T (l.length + amount) → A) :
    Ensures A (growStorage P T v where_ amount) (fun r h' => match r with
      | some v' => Grown P T h' v v' l where_ amount (capOf T h v) os
      | none => Rep P T h' v l os ∧ Refused P) h := by
  have hcap := le_grownCapacity (l.length + amount)
  have hcount := hr.count
  unfold growStorage
  dsimp only
  rw [hcount]
  refine ensures_bind (fatalIf_size (by omega) hA fun _ => ?_)
  obtain ⟨rfl, rfl, hO⟩ | ⟨a, p, rfl, hp, hO⟩ := hr.cases
  · -- no buffer yet
    have hw0 : where_ = 0 := Nat.le_zero.mp hw
    subst hw0
    refine ensures_bind (capacity_none (ensures_ite (fun hlt => ?_) fun hge => ?_))
    · refine ensures_bind (fatalIf_size (by omega) hA fun _ => ensures_bind (fatalIf_size (by omega) hA
        fun _ => ensures_bind (ensures_fatalIf (fun hlt => hA (.inr ?_)) fun _ => ?_)))
      · exact Nat.le_trans (Nat.sub_le ..) (Nat.le_of_lt hlt)
      · refine ensures_ite (fun _ => ?_) fun _ => ?_
        · exact moveStorage_grown hr hw hlt hA
        · exact moveStorage_grown hr hw hlt hA
    · have h0 : amount = 0 := by
        have : (0 : Nat) + amount ≤ 0 := Nat.le_of_not_lt hge
        omega
      exact ensures_bind (ensures_pure (ensures_ite (fun hne => absurd rfl hne) fun _ =>
        ensures_pure (.inl ⟨rfl, rfl, h0, rfl, hO⟩)))
  rw [capOf_pts hO]
  refine ensures_bind (capacity_spec hO (ensures_ite (fun hlt => ?_) fun hge => ?_))
  · refine ensures_bind (fatalIf_size (by omega) hA fun _ => ensures_bind (fatalIf_size (by omega) hA
      fun _ => ensures_bind (ensures_fatalIf (fun hlt => hA (.inr ?_)) fun _ => ?_)))
    · exact Nat.le_trans (Nat.sub_le ..) (Nat.le_of_lt hlt)
    refine ensures_ite (fun hcond => ?_) fun _ => moveStorage_grown hr hw hlt hA
    -- at the end of a plain buffer: resized where it is
    obtain ⟨hend, -, -⟩ := hcond
    replace hend : l.length = where_ := hend
    subst hend
    refine (editResize_grown hO hp hlt hA).bind ?_
    rintro (_ | b) h₁ hq
    · exact ensures_pure hq
    · exact ensures_pure hq
  · -- there is room behind the items
    refine (editArrayImpl_spec hO hp fun hf => hA (.inl hf)).bind ?_
    rintro _ h₁ ⟨b, q, rfl, hO₁, hb, hq, hsize, hkept⟩
    have hset : Settled os (l.length + amount ≤ p.mSize / T.itemSize) (some a) b := by
      refine ⟨hb, fun _ a' ha' hal => ?_⟩
      cases ha'
      exact hkept hal
    have hroom : l.length + amount ≤ q.mSize / T.itemSize := by
      rw [hsize]
      exact Nat.le_of_not_lt hge
    refine ensures_ite (fun hne => ?_) fun heq => ?_
    · refine (moveUp_gap hO₁ hb hq hw hroom hmove).bind ?_
      rintro - h₂ ⟨q', hO₂, hgap, hsize'⟩
      exact ensures_pure (.inr ⟨b, q', rfl, hset, hO₂, hgap, by rw [grownTo, if_neg hge, hsize', hsize]⟩)
    · have heq : where_ = l.length := Decidable.of_not_not heq
      subst heq
      exact ensures_pure (.inr ⟨b, q, rfl, hset, hO₁, hq.gap hroom, by rw [grownTo, if_neg hge, hsize]⟩)

/-- A gap of no items is none. -/
theorem Gap.holds {where_ : Nat} (hg : Gap P T l where_ 0 p) : Holds P T l p where
  fits := hg.fits
  size := hg.size
  items := by
    obtain ⟨gap, spare, hs, hgap, -, hsp⟩ := hg.slots
    refine ⟨spare, ?_, hsp⟩
    rw [hs, List.length_eq_zero_iff.mp hgap, List.append_nil, ← List.append_assoc, ← List.map_append,
      List.take_append_drop]

/-- **`_grow`** returns free space in a buffer of the vector's own.  It returns none where a request was
    refused, and where no space was asked for behind a full buffer. -/
theorem _grow_spec {where_ amount : Nat} (hr : Rep P T h v l os) (hw : where_ ≤ l.length)
    (hmove : amount = 0 → CanMove T (l.length - where_) 0)
    (hA : Exhausted P T (l.length + amount) → A) :
    Ensures A (_grow P T v where_ amount) (fun r h' => match r.2 with
      | some (b, i) => i = where_ ∧ (∃ q, r.1 = ⟨some b, l.length + amount⟩ ∧
          Settled os (l.length + amount ≤ capOf T h v) v.mStorage b ∧ Owned h' (pts b q :: os) ∧ Gap P T l where_ amount q ∧
          q.mSize / T.itemSize = grownTo (capOf T h v) (l.length + amount)) ∧
          ¬ (amount = 0 ∧ where_ = capOf T h v)
      | none => Rep P T h' r.1 l os ∧ (Refused P ∨ amount = 0 ∧ where_ = capOf T h v)) h := by
  have hcount := hr.count
  have hle := hr.le_capOf
  refine (growStorage_spec hr hw hmove hA).bind ?_
  rintro (_ | v') h₁ hq
  · exact ensures_pure ⟨hq.1, .inl hq.2⟩
  obtain ⟨rfl, rfl, rfl, hcap, hO₁⟩ | ⟨b, q, rfl, hb, hO₁, hg, hcap⟩ := hq
  · have hw0 : where_ = 0 := Nat.le_zero.mp hw
    refine ensures_bind (ensures_bind (capacity_none (ensures_ite (fun hlt => absurd hlt
      (Nat.not_lt_zero _)) fun _ => ensures_pure (ensures_pure ⟨?_, .inr ⟨rfl, by rw [hw0, hcap]⟩⟩))))
    exact Rep.of_none hO₁ hcount
  · have hroom := hg.room hw
    refine ensures_bind (ensures_bind (capacity_spec hO₁ (ensures_ite (fun hlt => ?_) fun hge => ?_)))
    · refine ensures_pure (ensures_pure ⟨rfl, ⟨q, by rw [hcount], hb, hO₁, hg, hcap⟩, ?_⟩)
      rintro ⟨rfl, hfull⟩
      rw [hcap, grownTo, Nat.add_zero, if_neg (Nat.not_lt.mpr hle)] at hlt
      omega
    · have h0 : amount = 0 := by omega
      subst h0
      refine ensures_pure (ensures_pure ⟨?_, .inr ⟨rfl, ?_⟩⟩)
      · rw [hcount]
        exact Rep.of_pts hO₁ hg.holds rfl
      · rw [hcap, grownTo, Nat.add_zero, if_neg (Nat.not_lt.mpr hle)] at hge
        omega

/-! ### Inserting -/

/-- The source supplies the items `xs`, whatever becomes of the vector itself: it lies outside, or in a
    buffer that one of the others owns. -/
structure Supplies (os : List (Owner (SharedBuffer α))) (src : Src α) (xs : List α) : Prop where
  fetched : ∀ h₁ o, Owned h₁ (o :: os) → fetch src xs.length h₁ = .returns (xs.map some, h₁)
  elsewhere : ∀ a i, src = .inside a i → ¬ Alone os a

theorem supplies_outside (xs : List α) : Supplies os (.outside xs) xs where
  fetched := by
    intro h₁ o _
    rw [fetch_outside (Nat.le_refl _), List.take_length]
  elsewhere := fun _ _ h => by cases h

/-- Another vector supplies its items. -/
theorem supplies_array {w : VectorImpl} {m : List α} (i num : Nat) (ho : own P T w m ∈ os)
    (hnull : w.mStorage = none → m = []) (hb : i + num ≤ m.length) :
    Supplies os (array w i) (slice m i num) where
  fetched := by
    intro h₁ o hO
    have hlen : (slice m i num).length = num := by
      rw [slice, List.length_take, List.length_drop]
      omega
    rw [hlen]
    exact fetch_array i num hO (List.mem_cons_of_mem _ ho) hnull hb
  elsewhere := by
    intro a j hsrc ha
    cases hst : w.mStorage with
    | none =>
      rw [array, hst] at hsrc
      cases hsrc
    | some b =>
      rw [array, hst] at hsrc
      cases hsrc
      exact ha _ ho hst

theorem Supplies.noOverlap {src : Src α} {xs : List α} {b i num : Nat} (hs : Supplies os src xs)
    (hb : Alone os b) : NoOverlap b i src num := by
  refine noOverlap_of_ne fun a j hsrc => ?_
  rintro rfl
  exact hs.elsewhere a j hsrc hb

/-- What an insertion of `xs` at `index` leaves of a vector with buffer `old`: the items are in, or
    nothing has changed. -/
def Inserts (P : Platform) (T : Traits α) (os : List (Owner (SharedBuffer α))) (old : Option Nat)
    (l : List α) (index cap : Nat) (xs : List α) (r : VectorImpl × Int) (h' : Memory α) : Prop :=
  (r.2 = ssize index ∧ Rep P T h' r.1 (l.take index ++ xs ++ l.drop index) os ∧
    ¬ (xs = [] ∧ index = cap) ∧ capOf T h' r.1 = grownTo cap (l.length + xs.length) ∧
    ∃ b, r.1.mStorage = some b ∧ Settled os (l.length + xs.length ≤ cap) old b) ∨
  (r.2 = NO_MEMORY ∧ Rep P T h' r.1 l os ∧ (Refused P ∨ xs = [] ∧ index = cap))

/-- Whether the items behind `index` can be moved by `amount` in place. -/
def Movable (T : Traits α) (l : List α) (index amount : Nat) : Prop :=
  amount = 0 → index = l.length ∨ T.trivialMove = true

theorem Movable.canMove {index amount : Nat} (hm : Movable T l index amount) (h0 : amount = 0) :
    CanMove T (l.length - index) 0 := by
  rcases hm h0 with rfl | ht
  · exact .inl (Nat.sub_self _)
  · exact .inr (.inr ht)

/-- The vector after the gap `_grow` has made is filled with `xs`. -/
theorem Rep.filled {index b : Nat} {q : SharedBuffer α} {xs : List α} {h₂ : Memory α}
    {gap spare : List (Option α)} (hg : Gap P T l index xs.length q) (hw : index ≤ l.length)
    (hs : q.slots = (l.take index).map some ++ gap ++ ((l.drop index).map some ++ spare))
    (hx : xs.length = gap.length) (hsp : Spare T spare)
    (hO₂ : Owned h₂ (pts b (withSlots q ((l.take index).map some ++ xs.map some ++
      ((l.drop index).map some ++ spare))) :: os)) :
    Rep P T h₂ ⟨some b, l.length + xs.length⟩ (l.take index ++ xs ++ l.drop index) os := by
  refine Rep.of_pts hO₂ (hg.fill hs hx hsp) ?_
  rw [List.length_append, List.length_append, List.length_take, List.length_drop]
  omega

/-- **`insertArrayAt`** with items that lie in no buffer of the vector's own. -/
theorem insertArrayAt_spec {src : Src α} {index : Nat} {xs : List α} (hr : Rep P T h v l os)
    (hw : index ≤ l.length) (hsrc : Supplies os src xs) (hm : Movable T l index xs.length)
    (hA : Exhausted P T (l.length + xs.length) → A) :
    Ensures A (insertArrayAt P T v src index xs.length)
      (Inserts P T os v.mStorage l index (capOf T h v) xs) h := by
  refine ensures_ite (fun hlt => absurd hlt (Nat.not_lt.mpr (hr.count.symm ▸ hw))) fun _ => ?_
  refine (_grow_spec hr hw hm.canMove hA).bind ?_
  rintro ⟨v', _ | ⟨b, i⟩⟩ h₁ hq
  · exact ensures_pure (.inr ⟨rfl, hq.1, hq.2.imp_right (And.imp_left List.length_eq_zero_iff.mp)⟩)
  obtain ⟨hi, ⟨q, hv', hb, hO₁, hg, hcap⟩, hne⟩ := hq
  replace hi : i = index := hi
  replace hv' : v' = _ := hv'
  subst hi hv'
  obtain ⟨gap, spare, hs, hgl, hgap, hsp⟩ := hg.slots
  show Ensures A (_do_copy T b i src xs.length >>= _) _ h₁
  refine (_do_copy_spec (hsrc.noOverlap hb.alone) (hsrc.fetched h₁ _ hO₁) hO₁ hb.alone hs ?_ hgl.symm
    hgap).bind fun _ h₂ hO₂ => ensures_pure (.inl ⟨rfl, Rep.filled hg hw hs hgl.symm hsp hO₂,
      fun hx => hne ⟨?_, hx.2⟩, (capOf_pts hO₂ _).trans hcap, b, rfl, hb⟩)
  · rw [List.length_map, List.length_take]
    omega
  · rw [hx.1, List.length_nil]

/-- **`insertAt`** with an item that lies in no buffer of the vector's own. -/
theorem insertAt_spec {item : Src α} {index n : Nat} {x : α} (hr : Rep P T h v l os)
    (hw : index ≤ l.length) (hsrc : n ≠ 0 → Supplies os item [x]) (hm : Movable T l index n)
    (hA : Exhausted P T (l.length + n) → A) :
    Ensures A (insertAt P T v (some item) index n)
      (Inserts P T os v.mStorage l index (capOf T h v) (List.replicate n x)) h := by
  have hx : (List.replicate n x).length = n := List.length_replicate
  refine ensures_ite (fun hlt => absurd hlt (Nat.not_lt.mpr (hr.count.symm ▸ hw))) fun _ => ?_
  refine (_grow_spec hr hw hm.canMove hA).bind ?_
  rintro ⟨v', _ | ⟨b, i⟩⟩ h₁ hq
  · refine ensures_pure (.inr ⟨rfl, hq.1, hq.2.imp_right (And.imp_left fun h0 => ?_)⟩)
    rw [h0, List.replicate_zero]
  obtain ⟨hi, ⟨q, hv', hb, hO₁, hg, hcap⟩, hne⟩ := hq
  replace hi : i = index := hi
  replace hv' : v' = _ := hv'
  subst hi hv'
  obtain ⟨gap, spare, hs, hgl, hgap, hsp⟩ := hg.slots
  show Ensures A (do_splat T b i item n >>= _) _ h₁
  refine (do_splat_spec (fun h0 => (hsrc h0).fetched h₁ _ hO₁) hO₁ hb.alone hs ?_ hgl hgap).bind
    fun _ h₂ hO₂ => ensures_pure (.inl ⟨rfl, ?_, fun hx => hne ⟨?_, hx.2⟩, ?_, b, rfl, hx.symm ▸ hb⟩)
  · rw [List.length_map, List.length_take]
    omega
  · have := Rep.filled (hx.symm ▸ hg) hw hs (hx.trans hgl.symm) hsp hO₂
    rwa [hx] at this
  · rw [← List.length_replicate (n := n) (a := x), hx.1, List.length_nil]
  · rw [hx]
    exact (capOf_pts hO₂ _).trans hcap

/-- **`insertAt`** of constructed items. -/
theorem insertAt_construct_spec {index n : Nat} (hr : Rep P T h v l os) (hw : index ≤ l.length)
    (hm : Movable T l index n) (hA : Exhausted P T (l.length + n) → A) :
    Ensures A (insertAt P T v none index n) (fun r h' => ∃ xs : List α, xs.length = n ∧
      (T.HAS_TRIVIAL_CTOR = false → xs = List.replicate n T.value) ∧
      Inserts P T os v.mStorage l index (capOf T h v) xs r h') h := by
  refine ensures_ite (fun hlt => absurd hlt (Nat.not_lt.mpr (hr.count.symm ▸ hw))) fun _ => ?_
  refine (_grow_spec hr hw hm.canMove hA).bind ?_
  rintro ⟨v', _ | ⟨b, i⟩⟩ h₁ hq
  · refine ensures_pure ⟨List.replicate n T.value, List.length_replicate, fun _ => rfl,
      .inr ⟨rfl, hq.1, hq.2.imp_right (And.imp_left fun h0 => ?_)⟩⟩
    rw [h0, List.replicate_zero]
  obtain ⟨hi, ⟨q, hv', hb, hO₁, hg, hcap⟩, hne⟩ := hq
  replace hi : i = index := hi
  replace hv' : v' = _ := hv'
  subst hi hv'
  obtain ⟨gap, spare, hs, hgl, hgap, hsp⟩ := hg.slots
  show Ensures A (_do_construct T b i n >>= _) _ h₁
  refine (_do_construct_spec hO₁ hb.alone hs ?_ hgl hgap).bind ?_
  · rw [List.length_map, List.length_take]
    omega
  rintro - h₂ ⟨xs, hx, hval, hO₂⟩
  subst hx
  refine ensures_pure ⟨xs, rfl, hval, .inl ⟨rfl, Rep.filled hg hw hs hgl.symm hsp hO₂, ?_,
    (capOf_pts hO₂ _).trans hcap, b, rfl, hb⟩⟩
  exact fun hx => hne ⟨hx.1 ▸ rfl, hx.2⟩

/-- Beyond the end nothing is inserted. -/
theorem insertAt_bad_index {item : Option (Src α)} {index n : Nat} {Q : VectorImpl × Int → Memory α → Prop}
    (hw : v.mCount < index) (hq : Q (v, BAD_INDEX) h) :
    Ensures A (insertAt P T v item index n) Q h := by
  rw [insertAt, if_pos hw]
  exact ensures_pure hq

theorem insertArrayAt_bad_index {src : Src α} {index n : Nat} {Q : VectorImpl × Int → Memory α → Prop}
    (hw : v.mCount < index) (hq : Q (v, BAD_INDEX) h) :
    Ensures A (insertArrayAt P T v src index n) Q h := by
  rw [insertArrayAt, if_pos hw]
  exact ensures_pure hq

/-! ### Removing -/

/-- The room in a shrunk buffer, whose size is computed without a check. -/
theorem shrunk_room {n cap : Nat} (hlt : n < p.mSize / T.itemSize / 2) (hsz : p.mSize < SIZE_MAX - P.header)
    (hcap : cap = max kMinVectorCapacity (n * 2)) :
    n ≤ cap * T.itemSize % 0x100000000 / T.itemSize ∧
    (SIZE_MAX - P.header ≤ cap * T.itemSize % 0x100000000 → Oversize P T 0) := by
  have hpos := T.itemSize_pos
  have hmul : p.mSize / T.itemSize * T.itemSize ≤ p.mSize := Nat.div_mul_le_self ..
  have hmax : SIZE_MAX - P.header ≤ 0xFFFFFFFF := Nat.sub_le ..
  have hmod : cap * T.itemSize % 0x100000000 ≤ cap * T.itemSize := Nat.mod_le ..
  by_cases hle : cap ≤ p.mSize / T.itemSize
  · -- the buffer really shrinks
    have hsize : cap * T.itemSize ≤ p.mSize :=
      Nat.le_trans (Nat.mul_le_mul_right _ hle) hmul
    have hfit : cap * T.itemSize % 0x100000000 = cap * T.itemSize := Nat.mod_eq_of_lt (by omega)
    refine ⟨?_, fun hge => absurd hge (by omega)⟩
    rw [hfit, Nat.mul_div_cancel _ hpos]
    omega
  · -- a buffer below the minimal capacity: nothing is left in it
    have h4 : cap = kMinVectorCapacity := by
      unfold kMinVectorCapacity at *
      omega
    refine ⟨?_, fun hge => ?_⟩
    · have h0 : n = 0 := by
        unfold kMinVectorCapacity at *
        omega
      rw [h0]
      exact Nat.zero_le _
    · rw [h4] at hmod hge
      exact Nat.le_trans hge hmod

/-- Whether `_grow` and `_shrink` may resize a buffer where it is. -/
def Plain (T : Traits α) : Prop := T.HAS_TRIVIAL_COPY = true ∧ T.HAS_TRIVIAL_DTOR = true

/-- What a removal leaves of a vector with buffer `old`: the items are out, or (a request was refused)
    nothing has changed.  A buffer that shrinks is another one, unless it could be resized. -/
def Removes (P : Platform) (T : Traits α) (os : List (Owner (SharedBuffer α))) (old : Option Nat)
    (l : List α) (index count cap : Nat) (v' : VectorImpl) (h' : Memory α) : Prop :=
  (Rep P T h' v' (l.take index ++ l.drop (index + count)) os ∧
    capOf T h' v' = shrunkTo T cap (l.length - count) ∧
    (¬ Plain T → l.length - count < cap / 2 → v'.mStorage ≠ old)) ∨
  (Rep P T h' v' l os ∧ Refused P)

theorem length_removed {index count : Nat} (hw : index + count ≤ l.length) :
    (l.take index ++ l.drop (index + count)).length = l.length - count := by
  rw [List.length_append, List.length_take, List.length_drop]
  omega

/-- `_shrink` behind the items that stay: the buffer is resized where it is. -/
theorem shrink_in_place {index count size cap : Nat} (hO : Owned h (pts a p :: os)) (hp : Holds P T l p)
    (hw : index + count ≤ l.length) (hend : index = l.length - count)
    (hplain : Plain T) (hroom : l.length - count ≤ size / T.itemSize)
    (hcap : shrunkTo T cap (l.length - count) = size / T.itemSize) (hA : SIZE_MAX - P.header ≤ size → A) :
    Ensures A (editResize P T a size >>= fun r => match r with
        | some sb => pure ⟨some sb, l.length - count⟩
        | none => pure ⟨some a, l.length⟩) (Removes P T os (some a) l index count cap) h := by
  obtain ⟨spare, hs, -⟩ := hp.items
  refine (editResize_spec hO hp.fits hp.size hA).bind ?_
  rintro (_ | b) h₁ hq
  · exact ensures_pure (.inr ⟨Rep.of_pts hq.1 hp rfl, hq.2⟩)
  obtain ⟨hO₁, -, hsz⟩ := hq
  have hcut : p.slots = (l.take index).map some ++ ((l.drop index).map some ++ spare) := by
    rw [hs, ← List.append_assoc, ← List.map_append, List.take_append_drop]
  have htake : (l.take index).length ≤ size / T.itemSize := by
    rw [List.length_take]
    omega
  have hsp : Spare T ((l.drop index).map some ++ spare) := .inl hplain.2
  obtain ⟨spare', hsp', hs'⟩ := resizeSlots_items size htake hsp
  have hfits := length_resizeSlots (T := T) p.slots size
  rw [hcut, hs'] at hO₁ hfits
  refine ensures_pure (.inl ⟨Rep.of_pts hO₁ ⟨hfits, hsz, spare', ?_, hsp'⟩ (length_removed hw).symm,
    (capOf_pts hO₁ _).trans hcap.symm, fun hno => absurd hplain hno⟩)
  rw [List.drop_of_length_le (by omega), List.append_nil]

/-- `_shrink` into a new buffer. -/
theorem shrink_moved {index count size cap : Nat} (hr : Rep P T h ⟨some a, l.length⟩ l os)
    (hw : index + count ≤ l.length) (hroom : l.length - count ≤ size / T.itemSize)
    (hcap : shrunkTo T cap (l.length - count) = size / T.itemSize)
    (hA : SIZE_MAX - P.header ≤ size → A) :
    Ensures A (moveStorage P T ⟨some a, l.length⟩ size index index (index + count)
        (l.length - count - index) >>= fun r => match r with
        | some v => pure { v with mCount := l.length - count }
        | none => pure ⟨some a, l.length⟩) (Removes P T os (some a) l index count cap) h := by
  refine (moveStorage_spec hr (Nat.le_refl _) (by omega) (by omega) (by omega) hA).bind ?_
  rintro (_ | v') h₁ hq
  · exact ensures_pure (.inr hq)
  obtain ⟨b, rfl, hb, hsz, hO₁⟩ := hq
  have hrest : l.length - count - index = l.length - (index + count) := by omega
  rw [hrest, slice_drop, Nat.sub_self, List.replicate_zero, List.append_nil, ← List.map_append] at hO₁
  refine ensures_pure (.inl ⟨Rep.of_pts hO₁ ⟨?_, hsz, _, rfl, spare_replicate _⟩
    (length_removed hw).symm, (capOf_pts hO₁ _).trans hcap.symm,
    fun _ _ he => hb _ List.mem_cons_self he.symm⟩)
  show (_ ++ _ : List _).length = size / T.itemSize
  rw [List.length_append, List.length_map, length_removed hw, List.length_replicate]
  omega

/-- `_shrink` within a buffer of one's own: the items in the middle are destroyed, those behind moved
    down. -/
theorem shrink_down {index count : Nat} (hO : Owned h (pts a p :: os)) (ha : Alone os a)
    (hp : Holds P T l p) (hw : index + count ≤ l.length) (hm : Movable T l index count) {cap : Nat}
    (hcap : shrunkTo T cap (l.length - count) = p.mSize / T.itemSize)
    (hge : ¬ l.length - count < cap / 2) :
    Ensures A (_do_destroy T a index count >>= fun _ =>
        whenever (index ≠ l.length - count)
          (do_move_backward T a index (index + count) (l.length - count - index)) >>= fun _ =>
        pure ⟨some a, l.length - count⟩) (Removes P T os (some a) l index count cap) h := by
  obtain ⟨spare, hs, hsp⟩ := hp.items
  have hthree : l = l.take index ++ slice l index count ++ l.drop (index + count) :=
    eq_take_slice_drop l index count
  have hcut : p.slots = (l.take index).map some ++ (slice l index count).map some ++
      ((l.drop (index + count)).map some ++ spare) := by
    rw [hs]
    conv_lhs => rw [hthree]
    simp only [List.map_append, List.append_assoc]
  have hfront : ((l.take index).map some).length = index := by
    rw [List.length_map, List.length_take]
    omega
  have hmid : (slice l index count).length = count := by
    rw [slice, List.length_take, List.length_drop]
    omega
  have hback : (l.drop (index + count)).length = l.length - count - index := by
    rw [List.length_drop]
    omega
  have hlen := hp.fits
  rw [Fits, hcut] at hlen
  simp only [List.length_append, List.length_map, hmid] at hlen
  refine (_do_destroy_spec hO ha hcut hfront hmid).bind ?_
  rintro - h₁ ⟨hole, hhl, hhole, hO₁⟩
  -- what the moved items leave behind them
  have hmoved : Ensures A (whenever (index ≠ l.length - count)
      (do_move_backward T a index (index + count) (l.length - count - index)))
      (fun _ h' => ∃ gap, gap.length = count ∧ Spare T gap ∧ Owned h' (pts a (withSlots p
        ((l.take index).map some ++ (l.drop (index + count)).map some ++ (gap ++ spare))) :: os)) h₁ := by
    refine ensures_whenever (fun _ => ?_) fun heq => ?_
    · have hs₁ : (l.take index).map some ++ hole ++ ((l.drop (index + count)).map some ++ spare) =
          (l.take index).map some ++ hole ++ (l.drop (index + count)).map some ++ spare := by
        simp only [List.append_assoc]
      refine (do_move_backward_spec hO₁ ha hs₁ hfront hback hhole (by rw [hhl]) ?_).mono ?_
      · by_cases h0 : count = 0
        · rw [hhl, h0, Nat.sub_zero]
          exact hm.canMove h0
        · exact .inr (.inl (by rw [hhl]; exact h0))
      · rintro - h₂ ⟨gap, hgl, hg, hO₂⟩
        exact ⟨gap, hgl.trans hhl, hg, hO₂⟩
    · have heq : index = l.length - count := Decidable.of_not_not heq
      have hnone : l.drop (index + count) = [] := List.length_eq_zero_iff.mp (by omega)
      refine ⟨hole, hhl, hhole, ?_⟩
      rw [hnone, List.map_nil, List.nil_append] at hO₁
      rw [hnone, List.map_nil, List.append_nil, ← List.append_assoc]
      exact hO₁
  refine hmoved.bind ?_
  rintro - h₂ ⟨gap, hgl, hg, hO₂⟩
  rw [← List.map_append] at hO₂
  refine ensures_pure (.inl ⟨Rep.of_pts hO₂ ⟨?_, hp.size, _, rfl, spare_append.mpr ⟨hg, hsp⟩⟩
    (length_removed hw).symm, (capOf_pts hO₂ _).trans hcap.symm, fun _ hlt => absurd hlt hge⟩)
  show (_ ++ _ : List _).length = p.mSize / T.itemSize
  rw [← hlen]
  simp only [List.length_append, List.length_map, hgl]
  omega

/-- **`_shrink`**, by its three ways: a buffer resized behind the items, a new buffer, the old one with
    the items behind moved down. -/
theorem _shrink_spec {index count : Nat} (hr : Rep P T h v l os) (hw : index + count ≤ l.length)
    (hm : Movable T l index count) (hA : Exhausted P T 0 → A) :
    Ensures A (_shrink P T v index count) (Removes P T os v.mStorage l index count (capOf T h v)) h := by
  obtain ⟨rfl, rfl, hO⟩ | ⟨a, p, rfl, hp, hO⟩ := hr.cases
  · refine ensures_pure (.inl ⟨?_, ?_, fun _ hlt => ?_⟩)
    · rw [List.take_nil, List.drop_nil]
      exact hr
    · show 0 = shrunkTo T 0 _
      rw [shrunkTo, if_neg (Nat.not_lt_zero _)]
    · have hcap : capOf T h ⟨none, 0⟩ = 0 := rfl
      rw [hcap, Nat.zero_div] at hlt
      exact absurd hlt (Nat.not_lt_zero _)
  rw [capOf_pts hO]
  refine ensures_bind (ensures_fatalIf (fun hlt => absurd hlt ?_) fun _ =>
    ensures_bind (ensures_require hw (ensures_bind (capacity_spec hO (ensures_ite (fun hlt => ?_)
      fun hge => ?_)))))
  · show ¬ l.length < count
    omega
  · -- the buffer is too large for what is left
    replace hlt : l.length - count < p.mSize / T.itemSize / 2 := hlt
    obtain ⟨hroom, hover⟩ := shrunk_room hlt hp.size rfl
    have hcap : shrunkTo T (p.mSize / T.itemSize) (l.length - count) = _ := if_pos hlt
    show Ensures A (if index = l.length - count ∧ _ then _ else _) _ h
    generalize max kMinVectorCapacity ((l.length - count) * 2) * T.itemSize % 0x100000000 = size
      at hroom hover hcap ⊢
    refine ensures_ite (fun hcond => ?_) fun _ => ?_
    · exact shrink_in_place hO hp hw hcond.1 hcond.2 hroom hcap fun hge => hA (.inr (hover hge))
    · exact shrink_moved hr hw hroom hcap fun hge => hA (.inr (hover hge))
  · refine (editArrayImpl_spec hO hp fun hf => hA (.inl hf)).bind ?_
    rintro _ h₁ ⟨b, q, rfl, hO₁, hb, hq, hsize, -⟩
    refine (shrink_down hO₁ hb hq hw hm (by rw [hsize]; exact if_neg hge) hge).mono fun v' h' hR =>
      hR.imp_left fun hok => ?_
    exact ⟨hok.1, hok.2.1, fun _ hlt => absurd hlt hge⟩

/-- **`removeItemsAt`** of items that are there.  It reports success also where a refused request has
    kept them all. -/
theorem removeItemsAt_spec {index count : Nat} (hr : Rep P T h v l os)
    (hw : index + count ≤ l.length) (hm : Movable T l index count) (hA : Exhausted P T 0 → A) :
    Ensures A (removeItemsAt P T v index count)
      (fun r h' => r.2 = ssize index ∧ Removes P T os v.mStorage l index count (capOf T h v) r.1 h') h := by
  have h32 := hr.length_lt
  have hmod : (index + count) % 0x100000000 = index + count := Nat.mod_eq_of_lt (by omega)
  refine ensures_ite (fun hlt => absurd hlt ?_) fun _ => ?_
  · rw [hmod, hr.count]
    omega
  · exact (_shrink_spec hr hw hm hA).bind fun _ _ hq => ensures_pure ⟨rfl, hq⟩

/-- Items that are not there are not removed. -/
theorem removeItemsAt_bad_value {index count : Nat} {Q : VectorImpl × Int → Memory α → Prop}
    (hw : v.mCount < index + count) (h32 : index + count < 0x100000000) (hq : Q (v, BAD_VALUE) h) :
    Ensures A (removeItemsAt P T v index count) Q h := by
  rw [removeItemsAt, Nat.mod_eq_of_lt h32, if_pos hw]
  exact ensures_pure hq

/-- **`clear`**. -/
theorem clear_spec (hr : Rep P T h v l os) (hm : Movable T l 0 l.length) (hA : Exhausted P T 0 → A) :
    Ensures A (clear P T v) (fun v' h' => Rep P T h' v' [] os ∨ (Rep P T h' v' l os ∧ Refused P)) h := by
  rw [clear, hr.count]
  refine (_shrink_spec hr (by omega) hm hA).mono fun v' h' hq => hq.imp_left fun hrep => ?_
  have hrep := hrep.1
  rwa [List.take_zero, Nat.zero_add, List.drop_length, List.append_nil] at hrep

/-- **`finish_vector`**. -/
theorem finish_vector_spec (hr : Rep P T h v l os) :
    Ensures A (finish_vector T v) (fun v' h' => v' = ⟨none, 0⟩ ∧ Rep P T h' v' [] os) h :=
  (release_storage_spec hr).bind fun _ _ hO => ensures_pure ⟨rfl, Rep.of_none hO rfl⟩

/-! ### Copying and editing -/

/-- **The copy constructor**: one more owner of the same buffer. -/
theorem copy_spec (hr : Rep P T h v l os) :
    Ensures A (copy v) (fun v' h' => v' = v ∧ Rep P T h' v' l (own P T v l :: os)) h := by
  obtain ⟨rfl, rfl, hO⟩ | ⟨a, p, rfl, hp, hO⟩ := hr.cases
  · exact ensures_pure ⟨rfl, Rep.of_none hr.owned rfl⟩
  · have hsee : ∀ q, q = p → Holds P T l q := by
      rintro q rfl
      exact hp
    refine (acquire_spec hO).bind fun _ h' hO' => ensures_pure ⟨rfl, ?_⟩
    exact Rep.of_pts ((hO'.perm (List.Perm.swap ..)).weaken hsee |>.perm (List.Perm.swap ..)) hp rfl

/-- **`operator =`**, between two vectors: the old items go, and the buffer is shared. -/
theorem assign_spec {w : VectorImpl} {m : List α} (hr : Rep P T h v l (own P T w m :: os))
    (hw : w.mCount = m.length) (hnull : w.mStorage = none → m = []) :
    Ensures A (assign T v w false) (fun v' h' => Rep P T h' v' m (own P T w m :: os)) h := by
  refine ensures_ite (fun hf => by cases hf) fun _ => ?_
  refine (release_storage_spec hr).bind fun _ h₁ hO₁ => ?_
  have hrw : Rep P T h₁ w m os := ⟨hO₁, hw, hnull⟩
  refine ensures_ite (fun hne => ?_) fun h0 => ?_
  · obtain ⟨rfl, rfl, -⟩ | ⟨a, p, rfl, hp, hO⟩ := hrw.cases
    · exact absurd rfl hne
    · have hsee : ∀ q, q = p → Holds P T m q := by
        rintro q rfl
        exact hp
      refine (acquire_spec hO).bind fun _ h' hO' => ensures_pure ?_
      exact Rep.of_pts ((hO'.perm (List.Perm.swap ..)).weaken hsee |>.perm (List.Perm.swap ..)) hp rfl
  · have h0 : w.mCount = 0 := Decidable.of_not_not h0
    have hm : m = [] := List.length_eq_zero_iff.mp (hw ▸ h0)
    subst hm
    exact ensures_pure (Rep.of_none hO₁ rfl)

/-- **`editItemLocation`** of an item: the vector is alone with its buffer. -/
theorem editItemLocation_spec {index : Nat} (hr : Rep P T h v l os) (hw : index < l.length)
    (hA : Refused P → A) :
    Ensures A (editItemLocation P T v index) (fun r h' => ∃ b q,
      r = (⟨some b, l.length⟩, some (b, index)) ∧ Owned h' (pts b q :: os) ∧ Alone os b ∧
      Holds P T l q) h := by
  obtain ⟨rfl, rfl, -⟩ | ⟨a, p, rfl, hp, hO⟩ := hr.cases
  · exact absurd hw (Nat.not_lt_zero _)
  refine ensures_bind (capacity_spec hO (ensures_ite (fun _ => ?_) fun hge => absurd
    (Nat.lt_of_lt_of_le hw hp.slots_length) hge))
  refine (editArrayImpl_spec hO hp hA).bind ?_
  rintro _ h₁ ⟨b, q, rfl, hO₁, hb, hq, -⟩
  exact ensures_pure ⟨b, q, rfl, hO₁, hb, hq⟩

/-- `l` with item `index` taken out of its middle. -/
theorem eq_take_get_drop {index : Nat} (hw : index < l.length) :
    l = l.take index ++ [l[index]] ++ l.drop (index + 1) := by
  rw [List.append_assoc, List.singleton_append, List.getElem_cons_drop, List.take_append_drop]

theorem set_eq_take_drop {index : Nat} (hw : index < l.length) (x : α) :
    l.set index x = l.take index ++ [x] ++ l.drop (index + 1) := by
  rw [List.set_eq_take_append_cons_drop, if_pos hw, List.append_assoc, List.singleton_append]

/-- A vector whose item `index` has been made anew. -/
theorem Rep.replaced {index b : Nat} {q : SharedBuffer α} {x : α} {spare : List (Option α)}
    {h₂ : Memory α} (hq : Holds P T l q) (hw : index < l.length)
    (hs : q.slots = l.map some ++ spare) (hsp : Spare T spare)
    (hO : Owned h₂ (pts b (withSlots q ((l.take index).map some ++ [some x] ++
      ((l.drop (index + 1)).map some ++ spare))) :: os)) :
    Rep P T h₂ ⟨some b, l.length⟩ (l.set index x) os := by
  have hslots : (l.take index).map some ++ [some x] ++ ((l.drop (index + 1)).map some ++ spare) =
      (l.set index x).map some ++ spare := by
    rw [set_eq_take_drop hw]
    simp only [List.map_append, List.map_cons, List.map_nil, List.append_assoc]
  rw [hslots] at hO
  refine Rep.of_pts hO ⟨?_, hq.size, spare, rfl, hsp⟩ (List.length_set ..).symm
  have hlen := hq.fits
  rw [Fits, hs] at hlen
  show (_ ++ _ : List _).length = q.mSize / T.itemSize
  rw [← hlen]
  simp only [List.length_append, List.length_map, List.length_set]

/-- **`replaceAt`** with an item that lies in no buffer of the vector's own. -/
theorem replaceAt_spec {prototype : Src α} {index : Nat} {x : α} (hr : Rep P T h v l os)
    (hw : index < l.length) (hsrc : Supplies os prototype [x]) (hA : Refused P → A) :
    Ensures A (replaceAt P T v (some prototype) index)
      (fun r h' => r.2 = ssize index ∧ Rep P T h' r.1 (l.set index x) os) h := by
  refine ensures_ite (fun hle => absurd hle (by rw [hr.count]; omega)) fun _ => ?_
  refine (editItemLocation_spec hr hw hA).bind ?_
  rintro _ h₁ ⟨b, q, rfl, hO₁, hb, hq⟩
  have hother : samePointer (some (b, index)) (some prototype) = false := by
    cases prototype with
    | outside xs => rfl
    | inside a i =>
      refine decide_eq_false fun he => ?_
      obtain ⟨rfl, rfl⟩ := he
      exact hsrc.elsewhere b index rfl hb
  show Ensures A (if samePointer (some (b, index)) (some prototype) = true then _ else _) _ h₁
  rw [if_neg (by rw [hother]; exact Bool.false_ne_true)]
  obtain ⟨spare, hs, hsp⟩ := hq.items
  have hcut : q.slots = (l.take index).map some ++ [l[index]].map some ++
      ((l.drop (index + 1)).map some ++ spare) := by
    rw [hs]
    conv_lhs => rw [eq_take_get_drop hw]
    simp only [List.map_append, List.append_assoc]
  have hfront : ((l.take index).map some).length = index := by
    rw [List.length_map, List.length_take]
    omega
  refine (_do_destroy_spec hO₁ hb hcut hfront rfl).bind ?_
  rintro - h₂ ⟨hole, hhl, hhole, hO₂⟩
  refine (_do_copy_spec (hsrc.noOverlap hb) (hsrc.fetched h₂ _ hO₂) hO₂ hb rfl hfront hhl.symm
    hhole).bind fun _ h₃ hO₃ => ensures_pure ⟨rfl, Rep.replaced hq hw hs hsp hO₃⟩

/-- What is not there is not replaced. -/
theorem replaceAt_bad_index {prototype : Option (Src α)} {index : Nat}
    {Q : VectorImpl × Int → Memory α → Prop} (hw : v.mCount ≤ index) (hq : Q (v, BAD_INDEX) h) :
    Ensures A (replaceAt P T v prototype index) Q h := by
  rw [replaceAt, if_pos hw]
  exact ensures_pure hq

/-! ### Capacity and size -/

/-- **`setCapacity`** changes no item. -/
theorem setCapacity_spec {n : Nat} (hr : Rep P T h v l os) (hA : Exhausted P T n → A) :
    Ensures A (setCapacity P T v n) (fun r h' => Rep P T h' r.1 l os ∧
      (if n ≤ l.length then r.2 = ssize (capOf T h v) ∧ h' = h
        else r.2 = ssize n ∧ capOf T h' r.1 = n ∨ r.2 = NO_MEMORY ∧ Refused P)) h := by
  refine ensures_ite (fun hle => ?_) fun hgt => ?_
  · rw [hr.count] at hle
    obtain ⟨rfl, rfl, hO⟩ | ⟨a, p, rfl, hp, hO⟩ := hr.cases
    · exact ensures_bind (capacity_none (ensures_pure ⟨hr, by rw [if_pos hle]; exact ⟨rfl, rfl⟩⟩))
    · refine ensures_bind (capacity_spec hO (ensures_pure ⟨hr, ?_⟩))
      rw [if_pos hle, capOf_pts hO]
      exact ⟨rfl, rfl⟩
  · rw [hr.count] at hgt
    have hcap : n ≤ grownCapacity n := Nat.le_trans (by omega) (le_grownCapacity n)
    have hmul : n * T.itemSize ≤ grownCapacity n * T.itemSize := Nat.mul_le_mul_right _ hcap
    have hdiv : n * T.itemSize / T.itemSize = n := Nat.mul_div_cancel _ T.itemSize_pos
    refine ensures_bind (ensures_fatalIf (fun hlt => hA (.inr ?_)) fun _ => ?_)
    · exact Nat.le_trans (Nat.sub_le ..) (Nat.le_trans (Nat.le_of_lt hlt) hmul)
    refine (alloc_spec hr.owned fun hge => hA (.inr (Nat.le_trans hge hmul))).bind ?_
    rintro (_ | b) h₁ hq
    · refine ensures_pure ⟨⟨hq.1, hr.count, hr.null⟩, ?_⟩
      rw [if_neg hgt]
      exact .inr ⟨rfl, hq.2⟩
    obtain ⟨hO₁, hb, hsz⟩ := hq
    have hroom : l.length ≤ n * T.itemSize / T.itemSize := by omega
    have hsplit : (blank T (n * T.itemSize)).slots = [] ++ List.replicate l.length none ++
        List.replicate (n * T.itemSize / T.itemSize - l.length) none := replicate_split hroom
    have hf := fetch_array (P := P) (T := T) 0 l.length hO₁ (List.mem_cons_of_mem _ List.mem_cons_self)
      hr.null (by omega)
    rw [slice, List.drop_zero, List.take_length] at hf
    rw [hr.count]
    refine (_do_copy_spec (noOverlap_array List.mem_cons_self hb) hf hO₁ hb hsplit rfl
      List.length_replicate.symm (spare_replicate _)).bind fun _ h₂ hO₂ => ?_
    have hrep : Rep P T h₂ v l (_ :: os) := ⟨hO₂.perm (List.Perm.swap ..), hr.count, hr.null⟩
    refine (release_storage_spec hrep).bind fun _ h₃ hO₃ => ensures_pure ?_
    refine ⟨Rep.of_pts hO₃ (holds_blank hroom hsz) rfl, ?_⟩
    rw [if_neg hgt]
    exact .inl ⟨rfl, (capOf_pts hO₃ _).trans hdiv⟩

/-- **`resize`**: items are constructed at the end, or removed there. -/
theorem resize_spec {size : Nat} (hr : Rep P T h v l os) (h31 : size < 0x80000000)
    (hA : Exhausted P T size → A) :
    Ensures A (resize P T v size) (fun r h' =>
      (r.2 = size ∧ ∃ xs : List α, xs.length = size - l.length ∧
        (T.HAS_TRIVIAL_CTOR = false → xs = List.replicate (size - l.length) T.value) ∧
        Rep P T h' r.1 (l.take size ++ xs) os) ∨
      (Rep P T h' r.1 l os ∧ Refused P)) h := by
  have hsize : ssize size = size := ssize_of_lt h31
  have hneg : ¬ ssize size < 0 := by omega
  unfold resize
  rw [hr.count]
  by_cases hgt : l.length < size
  · rw [if_pos hgt]
    have hmov : Movable T l l.length (size - l.length) := fun _ => .inl rfl
    have hfit : l.length + (size - l.length) = size := Nat.add_sub_cancel' (Nat.le_of_lt hgt)
    refine (insertAt_construct_spec hr (Nat.le_refl _) hmov (hfit.symm ▸ hA)).bind ?_
    rintro ⟨v', r⟩ h₁ ⟨xs, hx, hval, ⟨hr₁, hrep, -⟩ | ⟨hr₁, hrep, href⟩⟩
    · replace hr₁ : r = ssize l.length := hr₁
      rw [ssize_of_lt (Nat.lt_trans hgt h31)] at hr₁
      refine ensures_pure (.inl ⟨?_, xs, hx, hval, ?_⟩)
      · show (if r < 0 then r else ssize size) = _
        rw [if_neg (by omega), hsize]
      · rw [List.take_length, List.drop_length, List.append_nil] at hrep
        rwa [List.take_of_length_le (Nat.le_of_lt hgt)]
    · refine ensures_pure (.inr ⟨hrep, href.resolve_right ?_⟩)
      rintro ⟨rfl, -⟩
      rw [List.length_nil] at hx
      omega
  · rw [if_neg hgt]
    have hnone : size - l.length = 0 := by omega
    by_cases hlt : size < l.length
    · rw [if_pos hlt]
      have hmov : Movable T l size (l.length - size) := fun h0 => .inl (by omega)
      have hA0 : Exhausted P T 0 → A := fun he => hA (he.imp_right fun ho => ho.mono (Nat.zero_le _))
      refine (removeItemsAt_spec hr (by omega) hmov hA0).bind ?_
      rintro ⟨v', r⟩ h₁ ⟨hr₁, ⟨hrep, -⟩ | ⟨hrep, href⟩⟩
      · replace hr₁ : r = ssize size := hr₁
        subst hr₁
        refine ensures_pure (.inl ⟨?_, [], hnone.symm, fun _ => by rw [hnone]; rfl, ?_⟩)
        · show (if ssize size < 0 then ssize size else ssize size) = _
          rw [if_neg hneg, hsize]
        · rw [List.drop_of_length_le (by omega)] at hrep
          exact hrep
      · exact ensures_pure (.inr ⟨hrep, href⟩)
    · rw [if_neg hlt]
      have heq : l.length = size := by omega
      refine ensures_bind (ensures_pure (ensures_pure (.inl ⟨hsize, [], hnone.symm,
        fun _ => by rw [hnone]; rfl, ?_⟩)))
      rw [List.append_nil, ← heq, List.take_length]
      exact hr

/-! ## A vector of numbers -/

/-- The order of the numbers, as a comparison function. -/
def byValue (x y : Nat) : Int := (x : Int) - y

/-- A machine whose memory never runs out. -/
def ample : Platform := ⟨16, fun _ => true⟩

/-- Items of four bytes with a constructor and a destructor of their own. -/
def numbers : Traits Nat := ⟨4, by decide, false, false, false, false, 0, fun _ _ => 0⟩

theorem not_refused_ample : ¬ Refused ample := by
  rintro ⟨n, hn⟩
  cases hn

/-- The numbers in a new buffer with room for `n` more. -/
def box (h : Memory Nat) (xs : List Nat) (n : Nat) : Memory Nat :=
  h.alloc ⟨4 * (xs.length + n), xs.map some ++ List.replicate n none⟩

theorem rep_box {h : Memory Nat} {os : List (Owner (SharedBuffer Nat))} (hO : Owned h os) (xs : List Nat)
    (n : Nat) (hn : xs.length + n < 0x10000000) :
    Rep ample numbers (box h xs n) ⟨some h.next, xs.length⟩ xs os := by
  have hnew : Owned (box h xs n) (pts h.next ⟨4 * (xs.length + n), xs.map some ++ List.replicate n none⟩ :: os) :=
    hO.alloc rfl
  refine Rep.of_pts hnew ⟨?_, ?_, _, rfl, spare_replicate n⟩ rfl
  · show (xs.map some ++ List.replicate n none).length = 4 * (xs.length + n) / 4
    rw [List.length_append, List.length_map, List.length_replicate]
    omega
  · show 4 * (xs.length + n) < SIZE_MAX - 16
    unfold SIZE_MAX
    omega

/-- A memory of one vector. -/
def boxed (xs : List Nat) (n : Nat) : Memory Nat := box Heap.empty xs n

theorem rep_boxed (xs : List Nat) (n : Nat) (hn : xs.length + n < 0x10000000) :
    Rep ample numbers (boxed xs n) ⟨some 0, xs.length⟩ xs [] := rep_box Owned.empty xs n hn

end Codina.Utils.VectorImpl
