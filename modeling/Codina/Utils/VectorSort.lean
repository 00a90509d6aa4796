/-
  `VectorImpl::sort`, an insertion sort in place with one item of temporary storage.

  The array is left alone as long as no two neighbours are out of order; at the first that are, the
  vector makes the buffer its own and allocates the temporary.  An item that is out of place is copied
  to the temporary, the larger ones before it are moved up one by one (each slot destroyed, then copied
  into), and it is put where they end.

  The result is computed on lists: read backwards, it is the insertion sort of the items read
  backwards, which is what makes it stable.
-/
import Codina.Utils.VectorOps
import Mathlib.Data.List.Sort

namespace Codina.Utils.VectorImpl

open Codina.Faults Codina.Faults.Prog Codina.Refcount Codina.Slots Codina.Utils.SharedBuffer

variable {α : Type} (P : Platform) (T : Traits α) (cmp : α → α → Int)

/-! ## The program -/

/-- An item of the array, as `cmp` reads it. -/
def readItem (a i : Nat) : M α α := do
  match ← fetch (.inside a i) 1 with
  | [some x] => return x
  | _ => fault

/-- `malloc(mItemSize)`. -/
def mallocItem : M α Bool := do
  let h ← read
  write h.skip
  return P.malloc h.next

/-- `_do_destroy(temp, 1)`. -/
def destroyTemp (temp : Option α) : M α (Option α) :=
  if T.HAS_TRIVIAL_DTOR then
    return temp
  else do
    require (temp ≠ none)
    return none

/-- `_do_copy(temp, item, 1)`, into a temporary that holds `old`. -/
def copyTemp (old : Option α) (a i : Nat) : M α (Option α) := do
  require (T.HAS_TRIVIAL_DTOR ∨ old = none)
  let x ← readItem a i
  return some x

/-- Slot `n + 1` is destroyed and takes the item before it. -/
def moveUp (a n : Nat) : M α Unit := do
  _do_destroy T a (n + 1) 1
  _do_copy T a (n + 1) (.inside a n) 1

/-- The `do … while` loop: slot `next` is destroyed and takes the item before it, as long as that is
    larger than `temp`.  Returns the slot that is free at the end. -/
def shiftUp (a : Nat) (temp : α) : Nat → M α Nat
  | 0 => fault
  | 1 => do
    moveUp T a 0
    return 0
  | j + 2 => do
    moveUp T a (j + 1)
    let curr ← readItem a j
    if 0 < cmp curr temp then
      shiftUp a temp (j + 1)
    else
      return j + 1

/-- The item at `i` goes to the temporary `t`, and from there to its place among those before it. -/
def insertItem (t : Option α) (array i : Nat) : M α (Option α) := do
  let t ← copyTemp T t array i
  let x ← demand t
  let next ← shiftUp T cmp array x i
  _do_destroy T array next 1
  _do_copy T array next (.outside [x]) 1
  return t

/-- The vector on its own and a temporary to sort it with, or none.  The temporary is allocated once,
    and emptied before it is used again. -/
def prepare (this : VectorImpl) (temp : Option (Option α)) :
    M α (VectorImpl × Option (Option α)) :=
  match temp with
  | none => do
    let edited ← editArrayImpl P T this
    let got ← mallocItem P
    return (edited, if got then some none else none)
  | some t => do
    let t ← destroyTemp T t
    return (this, some t)

/-- The loop from item `i` on, `left` of them to go. -/
def sortLoop : (left : Nat) → (i : Nat) → VectorImpl → Option (Option α) →
    M α (VectorImpl × Option (Option α) × Int)
  | 0, _, this, temp => return (this, temp, NO_ERROR)
  | left + 1, i, this, temp =>
    match this.mStorage with
    | none => fault
    | some array => do
      let curr ← readItem array (i - 1)
      let item ← readItem array i
      if 0 < cmp curr item then
        let (this, temp) ← prepare P T this temp
        match this.mStorage, temp with
        | some array, some t =>
          let t ← insertItem T cmp t array i
          sortLoop left (i + 1) this (some t)
        | _, _ => return (this, none, NO_MEMORY)
      else
        sortLoop left (i + 1) this temp

def sort (this : VectorImpl) : M α (VectorImpl × Int) := do
  if 1 < ssize this.mCount then
    let (this, temp, status) ← sortLoop P T cmp (this.mCount - 1) 1 this none
    match temp with
    | some t =>
      let _ ← destroyTemp T t
      return (this, status)
    | none => return (this, status)
  else
    return (this, NO_ERROR)

/-! ## The lists behind it -/

/-- In a list read backwards `x` may stand before `e`. -/
def mayFollow (x e : α) : Prop := cmp e x ≤ 0

instance : DecidableRel (mayFollow cmp) := fun x e => inferInstanceAs (Decidable (cmp e x ≤ 0))

/-- What `sort` makes of a list. -/
def sorted (l : List α) : List α := (l.reverse.insertionSort (mayFollow cmp)).reverse

/-- Two neighbours are out of order. -/
def Disordered (l : List α) : Prop := ∃ pre x y post, l = pre ++ x :: y :: post ∧ 0 < cmp x y

variable {P T cmp} {h : Memory α} {os : List (Owner (SharedBuffer α))} {a : Nat} {p : SharedBuffer α}
  {A : Prop} {v : VectorImpl} {l : List α}

theorem insertionSort_snoc {s : List α} {x : α} {t : List α}
    (hs : s.reverse = t.reverse.insertionSort (mayFollow cmp)) :
    (s.reverse.orderedInsert (mayFollow cmp) x) = (t ++ [x]).reverse.insertionSort (mayFollow cmp) := by
  rw [hs, List.reverse_append, List.reverse_singleton, List.singleton_append, List.insertionSort_cons]

/-! ## Its steps -/

/-- Reading one item. -/
theorem readItem_spec {i : Nat} {pre post : List (Option α)} {x : α} {c : Cell (SharedBuffer α)}
    {Q : α → Memory α → Prop} (hc : h.cells a = some c) (hs : c.payload.slots = pre ++ [some x] ++ post)
    (hi : pre.length = i) (hq : Q x h) : Ensures A (readItem a i) Q h :=
  ensures_bind (ensures_fetch (fetch_inside hc hs hi rfl) hq)

theorem moveUp_spec {B : List α} {c y : α} {post : List (Option α)} {n : Nat}
    (hO : Owned h (pts a p :: os)) (ha : Alone os a)
    (hs : p.slots = (B ++ [c]).map some ++ [some y] ++ post) (hn : B.length = n) :
    Ensures A (moveUp T a n) (fun _ h' => Owned h' (pts a (withSlots p
      (B.map some ++ [some c] ++ ([c].map some ++ post))) :: os)) h := by
  have hlen : ((B ++ [c]).map some).length = n + 1 := by
    rw [List.length_map, List.length_append, hn, List.length_singleton]
  have hs : p.slots = (B ++ [c]).map some ++ [y].map some ++ post := hs
  refine (_do_destroy_spec hO ha hs hlen rfl).bind ?_
  rintro - h₁ ⟨hole, hhl, hhole, hO₁⟩
  have hsrc : (B ++ [c]).map some ++ hole ++ post = B.map some ++ [c].map some ++ (hole ++ post) := by
    simp only [List.map_append, List.append_assoc]
  have hf : fetch (.inside a n) 1 h₁ = .returns ([c].map some, h₁) :=
    fetch_inside hO₁.pts_cell hsrc (by rw [List.length_map, hn]) rfl
  have heq : (B ++ [c]).map some ++ [c].map some ++ post =
      B.map some ++ [some c] ++ ([c].map some ++ post) := by
    simp only [List.map_append, List.map_singleton, List.append_assoc]
  have hno : NoOverlap a (n + 1) (.inside a n : Src α) 1 := .inr (.inl (Nat.le_refl _))
  refine (_do_copy_spec hno hf hO₁ ha rfl hlen hhl.symm hhole).mono fun _ h₂ hO₂ => ?_
  rwa [heq] at hO₂

/-- **The inner loop.**  The items larger than `t` at the end of the list move up by one, which leaves
    the place where `t` belongs. -/
theorem shiftUp_spec {t : α} : ∀ (n : Nat) {B : List α} {y c : α} {post : List (Option α)}
    {p : SharedBuffer α} {h : Memory α}, B.length = n → Owned h (pts a p :: os) → Alone os a →
    p.slots = (B ++ [c]).map some ++ [some y] ++ post → 0 < cmp c t →
    Ensures A (shiftUp T cmp a t (n + 1)) (fun k h' => ∃ B₁ B₂ z, B ++ [c] = B₁ ++ B₂ ∧
      k = B₁.length ∧ Owned h' (pts a (withSlots p
        (B₁.map some ++ [some z] ++ (B₂.map some ++ post))) :: os) ∧
      (B ++ [c]).reverse.orderedInsert (mayFollow cmp) t = B₂.reverse ++ t :: B₁.reverse) h
  | 0, B, y, c, post, p, h, hn, hO, ha, hs, hct => by
    have hB := List.length_eq_zero_iff.mp hn
    subst hB
    have hnot : ¬ mayFollow cmp t c := Int.not_le.mpr hct
    refine (moveUp_spec hO ha hs rfl).bind fun _ h₁ hO₁ => ensures_pure ⟨[], [c], c, rfl, rfl, hO₁, ?_⟩
    exact List.orderedInsert_of_not_le _ [] hnot
  | n + 1, B, y, c, post, p, h, hn, hO, ha, hs, hct => by
    obtain rfl | ⟨B', d, rfl⟩ := List.eq_nil_or_concat' B
    · cases hn
    have hn' : B'.length = n := by
      rw [List.length_append, List.length_singleton] at hn
      omega
    have hnot : ¬ mayFollow cmp t c := Int.not_le.mpr hct
    have hins : ((B' ++ [d]) ++ [c]).reverse.orderedInsert (mayFollow cmp) t =
        c :: (B' ++ [d]).reverse.orderedInsert (mayFollow cmp) t := by
      rw [List.reverse_append, List.reverse_singleton, List.singleton_append]
      exact List.orderedInsert_of_not_le _ _ hnot
    refine (moveUp_spec hO ha hs hn).bind fun _ h₁ hO₁ => ?_
    have hread : (B' ++ [d]).map some ++ [some c] ++ ([c].map some ++ post) =
        B'.map some ++ [some d] ++ ([some c] ++ ([c].map some ++ post)) := by
      simp only [List.map_append, List.map_singleton, List.append_assoc]
    refine ensures_bind (readItem_spec hO₁.pts_cell hread (by rw [List.length_map, hn'])
      (ensures_ite (fun hdt => ?_) fun hdt => ?_))
    · -- the item before it is larger as well
      refine (shiftUp_spec n hn' hO₁ ha rfl hdt).mono ?_
      rintro k h₂ ⟨B₁, B₂, z, hB, hk, hO₂, hi⟩
      refine ⟨B₁, B₂ ++ [c], z, by rw [hB, List.append_assoc], hk, ?_, ?_⟩
      · have hcat : (B₂ ++ [c]).map some ++ post = B₂.map some ++ ([c].map some ++ post) := by
          rw [List.map_append, List.append_assoc]
        rw [hcat]
        exact hO₂
      · rw [hins, hi, List.reverse_append, List.reverse_singleton, List.singleton_append,
          List.cons_append]
    · -- here `t` belongs
      have hd : mayFollow cmp t d := Int.not_lt.mp hdt
      refine ensures_pure ⟨B' ++ [d], [c], c, rfl, by rw [hn], hO₁, ?_⟩
      rw [hins, List.reverse_append, List.reverse_singleton, List.singleton_append]
      rw [List.orderedInsert_cons_of_le _ _ hd]
      rfl

/-! ## The sort -/

/-- A temporary that may be written. -/
def Emptied (T : Traits α) (t : Option α) : Prop := T.HAS_TRIVIAL_DTOR = true ∨ t = none

theorem destroyTemp_spec {x : α} :
    Ensures A (destroyTemp T (some x)) (fun t h' => Emptied T t ∧ h' = h) h :=
  ensures_ite (fun ht => ensures_pure ⟨.inl ht, rfl⟩) fun _ =>
    ensures_bind (ensures_require (Option.some_ne_none x) (ensures_pure ⟨.inr rfl, rfl⟩))

/-- In the course of the loop: the items before `i` are sorted, those from `i` on as they were.  There
    is a temporary exactly if something was out of order; before that nothing has been touched. -/
structure SortState (P : Platform) (T : Traits α) (cmp : α → α → Int)
    (os : List (Owner (SharedBuffer α))) (v₀ : VectorImpl) (h₀ : Memory α) (l : List α) (i : Nat)
    (a : Nat) (p : SharedBuffer α) (s : List α) (temp : Option (Option α)) (h : Memory α) : Prop where
  owned : Owned h (pts a p :: os)
  holds : Holds P T (s ++ l.drop i) p
  length : s.length = i
  sorted : s.reverse = (l.take i).reverse.insertionSort (mayFollow cmp)
  temp : (temp = none ∧ v₀ = ⟨some a, l.length⟩ ∧ h₀ = h ∧ s = l.take i) ∨
    ((∃ x, temp = some (some x)) ∧ Alone os a ∧ Disordered cmp l)

/-- What the loop and `sort` leave: the sorted items, or, where a request was refused, the old ones. -/
def Sorts (P : Platform) (T : Traits α) (cmp : α → α → Int) (os : List (Owner (SharedBuffer α)))
    (v₀ : VectorImpl) (h₀ : Memory α) (l : List α) (v' : VectorImpl) (status : Int) (h' : Memory α) :
    Prop :=
  (status = NO_ERROR ∧ Rep P T h' v' (sorted cmp l) os ∧ (v' = v₀ ∧ h' = h₀ ∨ Disordered cmp l)) ∨
  (status = NO_MEMORY ∧ Rep P T h' v' l os ∧ Refused P ∧ Disordered cmp l)

theorem length_sorted (l : List α) : (sorted cmp l).length = l.length := by
  rw [sorted, List.length_reverse, List.length_insertionSort, List.length_reverse]

/-- **`prepare`**: the vector is alone with its buffer and there is a temporary to write, or nothing
    has changed and a request was refused. -/
theorem prepare_spec {v₀ : VectorImpl} {h₀ : Memory α} {i : Nat} {s : List α}
    {temp : Option (Option α)} (hS : SortState P T cmp os v₀ h₀ l i a p s temp h)
    (hA : Refused P → A) :
    Ensures A (prepare P T ⟨some a, l.length⟩ temp) (fun r h' =>
      (∃ b q t, r = (⟨some b, l.length⟩, some t) ∧ Emptied T t ∧ Owned h' (pts b q :: os) ∧
        Alone os b ∧ Holds P T (s ++ l.drop i) q) ∨
      (∃ b, r = (⟨some b, l.length⟩, none) ∧ Rep P T h' ⟨some b, l.length⟩ l os ∧ Refused P)) h := by
  obtain ⟨rfl, -, -, hs⟩ | ⟨⟨x, rfl⟩, ha, -⟩ := hS.temp
  · have hall : s ++ l.drop i = l := by rw [hs, List.take_append_drop]
    have hp := hS.holds
    rw [hall] at hp
    refine (editArrayImpl_spec hS.owned hp hA).bind ?_
    rintro _ h₁ ⟨b, q, rfl, hO₁, hb, hq, -⟩
    refine ensures_bind (ensures_bind (ensures_read (ensures_bind (ensures_write
      (ensures_pure (ensures_pure ?_))))))
    cases hm : P.malloc h₁.next with
    | true => exact .inl ⟨b, q, none, rfl, .inr rfl, hO₁.skip, hb, hall.symm ▸ hq⟩
    | false => exact .inr ⟨b, rfl, Rep.of_pts hO₁.skip hq rfl, _, hm⟩
  · refine destroyTemp_spec.bind ?_
    rintro t _ ⟨ht, rfl⟩
    exact ensures_pure (.inl ⟨a, p, t, rfl, ht, hS.owned, ha, hS.holds⟩)

/-- **`insertItem`**, where the items before `i` are `B ++ [c]`. -/
theorem insertItem_spec {b i : Nat} {q : SharedBuffer α} {t : Option α} {B rest : List α} {c x : α}
    (hO : Owned h (pts b q :: os)) (hb : Alone os b) (ht : Emptied T t)
    (hq : Holds P T (B ++ [c] ++ x :: rest) q) (hi : (B ++ [c]).length = i) (hcx : 0 < cmp c x) :
    Ensures A (insertItem T cmp t b i) (fun t' h' => t' = some x ∧ ∃ q' s', Owned h' (pts b q' :: os) ∧
      Holds P T (s' ++ rest) q' ∧ s'.length = i + 1 ∧
      s'.reverse = (B ++ [c]).reverse.orderedInsert (mayFollow cmp) x) h := by
  obtain ⟨spare, hs, hsp⟩ := hq.items
  have hcut : q.slots = (B ++ [c]).map some ++ [some x] ++ (rest.map some ++ spare) := by
    rw [hs]
    simp only [List.map_append, List.map_cons, List.append_assoc, List.cons_append, List.map_nil,
      List.nil_append]
  have hfront : ((B ++ [c]).map some).length = i := by rw [List.length_map, hi]
  have hn : i = B.length + 1 := by rw [← hi, List.length_append, List.length_singleton]
  refine ensures_bind (ensures_bind (ensures_require ht (ensures_bind
    (readItem_spec hO.pts_cell hcut hfront (ensures_pure ?_)))))
  refine ensures_bind (ensures_demand rfl ?_)
  rw [hn]
  refine (shiftUp_spec B.length rfl hO hb hcut hcx).bind ?_
  rintro k h₁ ⟨B₁, B₂, z, hB, rfl, hO₁, hins⟩
  have hs₁ : B₁.map some ++ [some z] ++ (B₂.map some ++ (rest.map some ++ spare)) =
      B₁.map some ++ [z].map some ++ (B₂.map some ++ (rest.map some ++ spare)) := rfl
  have hlen₁ : (B₁.map some).length = B₁.length := List.length_map ..
  refine (_do_destroy_spec hO₁ hb hs₁ hlen₁ rfl).bind ?_
  rintro - h₂ ⟨hole, hhl, hhole, hO₂⟩
  have hf : fetch (.outside [x]) 1 h₂ = .returns ([x].map some, h₂) := fetch_outside (Nat.le_refl _)
  have hno : NoOverlap b B₁.length (.outside [x]) 1 := trivial
  refine (_do_copy_spec hno hf hO₂ hb rfl hlen₁ hhl.symm hhole).bind fun _ h₃ hO₃ =>
    ensures_pure ⟨rfl, _, B₁ ++ [x] ++ B₂, hO₃, ⟨?_, hq.size, spare, ?_, hsp⟩, ?_, ?_⟩
  · have hlen := hq.fits
    have hB' := congrArg List.length hB
    rw [Fits, hcut] at hlen
    show (_ ++ _ : List _).length = q.mSize / T.itemSize
    rw [← hlen]
    simp only [List.length_append, List.length_map, List.length_singleton] at hB' ⊢
    omega
  · show _ ++ _ = _
    simp only [List.map_append, List.append_assoc]
  · have hB' := congrArg List.length hB
    simp only [List.length_append, List.length_singleton] at hB' ⊢
    omega
  · rw [hins, List.reverse_append, List.reverse_append, List.reverse_singleton, List.singleton_append]

/-- **The loop.** -/
theorem sortLoop_spec {v₀ : VectorImpl} {h₀ : Memory α} (hA : Refused P → A) : ∀ (left : Nat) {i : Nat}
    {a : Nat} {p : SharedBuffer α} {s : List α} {temp : Option (Option α)} {h : Memory α},
    SortState P T cmp os v₀ h₀ l i a p s temp h → 1 ≤ i → i + left = l.length →
    Ensures A (sortLoop P T cmp left i ⟨some a, l.length⟩ temp) (fun r h' =>
      Sorts P T cmp os v₀ h₀ l r.1 r.2.2 h' ∧ (r.2.1 = none ∨ ∃ x, r.2.1 = some (some x))) h
  | 0, i, a, p, s, temp, h, hS, hi, hl => by
    have hs : s = sorted cmp l := by
      have := hS.sorted
      rw [List.take_of_length_le (by omega)] at this
      rw [sorted, ← this, List.reverse_reverse]
    have hp := hS.holds
    rw [List.drop_of_length_le (by omega), List.append_nil, hs] at hp
    have hrep := Rep.of_pts hS.owned hp (length_sorted l).symm
    obtain ⟨ht, hv, hh, -⟩ | ⟨ht, -, hd⟩ := hS.temp
    · exact ensures_pure ⟨.inl ⟨rfl, hrep, .inl ⟨hv.symm, hh.symm⟩⟩, .inl ht⟩
    · exact ensures_pure ⟨.inl ⟨rfl, hrep, .inr hd⟩, .inr ht⟩
  | left + 1, i, a, p, s, temp, h, hS, hi, hl => by
    have hlt : i < l.length := by omega
    obtain rfl | ⟨B, c, rfl⟩ := List.eq_nil_or_concat' s
    · have := hS.length
      rw [List.length_nil] at this
      omega
    have hdrop : l.drop i = l[i] :: l.drop (i + 1) := List.drop_eq_getElem_cons hlt
    have htake : l.take (i + 1) = l.take i ++ [l[i]] := (List.take_append_getElem hlt).symm
    have hp := hS.holds
    rw [hdrop] at hp
    obtain ⟨spare, hs, -⟩ := hp.items
    have hB : (B.map some).length = i - 1 := by
      have := hS.length
      rw [List.length_append, List.length_singleton] at this
      rw [List.length_map]
      omega
    have hcurr : p.slots = B.map some ++ [some c] ++ ((l[i] :: l.drop (i + 1)).map some ++ spare) := by
      rw [hs]
      simp only [List.map_append, List.map_cons, List.map_nil, List.append_assoc]
    have hitem : p.slots = (B ++ [c]).map some ++ [some l[i]] ++ ((l.drop (i + 1)).map some ++ spare) := by
      rw [hs]
      simp only [List.map_append, List.map_cons, List.map_nil, List.append_assoc, List.cons_append,
        List.nil_append]
    have hlen : ((B ++ [c]).map some).length = i := by rw [List.length_map, hS.length]
    refine ensures_bind (readItem_spec hS.owned.pts_cell hcurr hB (ensures_bind
      (readItem_spec hS.owned.pts_cell hitem hlen (ensures_ite (fun hgt => ?_) fun hle => ?_))))
    · -- out of order
      have hd : Disordered cmp l := by
        obtain ⟨-, -, -, hs⟩ | ⟨-, -, hd⟩ := hS.temp
        · refine ⟨B, c, l[i], l.drop (i + 1), ?_, hgt⟩
          rw [← hdrop, List.append_cons, hs, List.take_append_drop]
        · exact hd
      refine (prepare_spec hS hA).bind ?_
      rintro _ h₁ (⟨b, q, t, rfl, ht, hO₁, hb, hq⟩ | ⟨b, rfl, hrep, href⟩)
      · rw [hdrop] at hq
        show Ensures A (insertItem T cmp t b i >>= _) _ h₁
        refine (insertItem_spec hO₁ hb ht hq hS.length hgt).bind ?_
        rintro _ h₂ ⟨rfl, q', s', hO₂, hq', hlen', hins⟩
        refine sortLoop_spec hA left ⟨hO₂, hq', hlen', ?_, .inr ⟨⟨_, rfl⟩, hb, hd⟩⟩ (by omega) (by omega)
        rw [hins, htake]
        exact insertionSort_snoc hS.sorted
      · exact ensures_pure ⟨.inr ⟨rfl, hrep, href, hd⟩, .inl rfl⟩
    · -- in order
      have hnext : SortState P T cmp os v₀ h₀ l (i + 1) a p (B ++ [c] ++ [l[i]]) temp h := by
        refine ⟨hS.owned, ?_, ?_, ?_, hS.temp.imp_left fun ht => ⟨ht.1, ht.2.1, ht.2.2.1, ?_⟩⟩
        · rw [List.append_assoc (B ++ [c]), List.singleton_append]
          exact hp
        · rw [List.length_append, hS.length, List.length_singleton]
        · have hle : mayFollow cmp l[i] c := Int.not_lt.mp hle
          have hrev : (B ++ [c]).reverse = c :: B.reverse := by
            simp only [List.reverse_append, List.reverse_singleton, List.singleton_append]
          have hrev' : (B ++ [c] ++ [l[i]]).reverse = l[i] :: c :: B.reverse := by
            simp only [List.reverse_append, List.reverse_singleton, List.singleton_append]
          rw [htake, ← insertionSort_snoc hS.sorted, hrev, hrev']
          exact (List.orderedInsert_cons_of_le _ _ hle).symm
        · rw [ht.2.2.2, htake]
      exact sortLoop_spec hA left hnext (by omega) (by omega)

/-- **`sort`.**  The items are sorted as by an insertion sort read backwards; a vector in which nothing
    is out of order is not touched; a refused request leaves the items as they were. -/
theorem sort_spec (hr : Rep P T h v l os) (h31 : l.length < 0x80000000) (hA : Refused P → A) :
    Ensures A (sort P T cmp v) (fun r h' => Sorts P T cmp os v h l r.1 r.2 h') h := by
  have hcount := hr.count
  unfold sort
  rw [hcount, ssize_of_lt h31]
  refine ensures_ite (fun hgt => ?_) fun hle => ?_
  · obtain ⟨rfl, rfl, -⟩ | ⟨a, p, rfl, hp, hO⟩ := hr.cases
    · exact absurd hgt (by simp)
    have hS : SortState P T cmp os ⟨some a, l.length⟩ h l 1 a p (l.take 1) none h := by
      refine ⟨hO, by rwa [List.take_append_drop], ?_, ?_, .inl ⟨rfl, rfl, rfl, rfl⟩⟩
      · rw [List.length_take]
        omega
      · match l, hgt with
        | x :: _, _ => rfl
    refine (sortLoop_spec hA (l.length - 1) hS (Nat.le_refl 1) (by omega)).bind ?_
    rintro ⟨v', temp, status⟩ h₁ ⟨hsorts, rfl | ⟨x, rfl⟩⟩
    · exact ensures_pure hsorts
    · refine (destroyTemp_spec (T := T) (x := x)).bind ?_
      rintro - _ ⟨-, rfl⟩
      exact ensures_pure hsorts
  · refine ensures_pure (.inl ⟨rfl, ?_, .inl ⟨rfl, rfl⟩⟩)
    have hshort : sorted cmp l = l := by
      match l, hle with
      | [], _ => rfl
      | [x], _ => rfl
      | _ :: _ :: _, hle =>
        refine absurd ?_ hle
        simp only [List.length_cons]
        omega
    rw [hshort]
    exact hr

/-! ## What a sorted list is -/

section

variable (htotal : ∀ x y, cmp x y ≤ 0 ∨ cmp y x ≤ 0)
  (htrans : ∀ x y z, cmp x y ≤ 0 → cmp y z ≤ 0 → cmp x z ≤ 0)

theorem perm_sorted (l : List α) : (sorted cmp l).Perm l :=
  (List.reverse_perm _).trans ((List.perm_insertionSort _ _).trans (List.reverse_perm _))

include htotal htrans in
theorem pairwise_sorted (l : List α) : (sorted cmp l).Pairwise fun x y => cmp x y ≤ 0 := by
  have : Std.Total (mayFollow cmp) := ⟨fun x y => htotal y x⟩
  have : IsTrans α (mayFollow cmp) := ⟨fun x y z hxy hyz => htrans z y x hyz hxy⟩
  exact List.pairwise_reverse.mpr (List.pairwise_insertionSort (mayFollow cmp) l.reverse)

/-- What stands in order in the list stands in the same order in the sorted one. -/
theorem sublist_sorted {c : List α} (hc : c.Sublist l) (ho : c.Pairwise fun x y => cmp x y ≤ 0) :
    c.Sublist (sorted cmp l) := by
  have hrev : c.reverse.Pairwise (mayFollow cmp) := List.pairwise_reverse.mpr ho
  have := (List.sublist_insertionSort hrev hc.reverse).reverse
  rwa [List.reverse_reverse] at this

include htotal htrans in
/-- **A stable sort in place.**  For a comparison that orders the items, `sort` leaves a permutation of
    them in order, in which every sequence of items that stood in order before still stands so.  It
    touches neither vector nor memory unless two neighbours are out of order, and where it reports
    `NO_MEMORY` the items are as they were. -/
theorem sort_is_stable (hr : Rep P T h v l os) (h31 : l.length < 0x80000000) :
    Ensures (Refused P) (sort P T cmp v) (fun r h' =>
      (r.2 = NO_ERROR ∧ ∃ l', Rep P T h' r.1 l' os ∧ l'.Perm l ∧
        (l'.Pairwise fun x y => cmp x y ≤ 0) ∧
        (∀ c : List α, c.Sublist l → (c.Pairwise fun x y => cmp x y ≤ 0) → c.Sublist l')) ∧
        (r.1 = v ∧ h' = h ∨ Disordered cmp l) ∨
      (r.2 = NO_MEMORY ∧ Rep P T h' r.1 l os ∧ Refused P ∧ Disordered cmp l)) h := by
  refine (sort_spec hr h31 id).mono ?_
  rintro r h' (⟨hr, hrep, htouch⟩ | hfail)
  · exact .inl ⟨⟨hr, sorted cmp l, hrep, perm_sorted l, pairwise_sorted htotal htrans l,
      fun c => sublist_sorted⟩, htouch⟩
  · exact .inr hfail

theorem sort_is_stable_three : Ensures (Refused ample) (sort ample numbers byValue ⟨some 0, 3⟩) (fun r h' =>
      (r.2 = NO_ERROR ∧ ∃ l', Rep ample numbers h' r.1 l' [] ∧ l'.Perm [3, 1, 2] ∧
        (l'.Pairwise fun x y => byValue x y ≤ 0) ∧
        (∀ c : List Nat, c.Sublist [3, 1, 2] → (c.Pairwise fun x y => byValue x y ≤ 0) → c.Sublist l')) ∧
        (r.1 = ⟨some 0, 3⟩ ∧ h' = boxed [3, 1, 2] 1 ∨ Disordered byValue [3, 1, 2]) ∨
      (r.2 = NO_MEMORY ∧ Rep ample numbers h' r.1 [3, 1, 2] [] ∧ Refused ample ∧
        Disordered byValue [3, 1, 2])) (boxed [3, 1, 2] 1) := by
  have htotal : ∀ x y : Nat, byValue x y ≤ 0 ∨ byValue y x ≤ 0 := fun x y => by unfold byValue; omega
  have htrans : ∀ x y z : Nat, byValue x y ≤ 0 → byValue y z ≤ 0 → byValue x z ≤ 0 :=
    fun x y z => by unfold byValue; omega
  exact sort_is_stable htotal htrans (rep_boxed [3, 1, 2] 1 (by decide)) (by decide)

end

end Codina.Utils.VectorImpl
