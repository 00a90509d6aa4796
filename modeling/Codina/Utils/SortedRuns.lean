/-
  Any number of sorted vectors that share buffers behave as independent finite maps.

  The map of a vector sends every kind of items to the item of that kind it holds.  A call changes the
  map of its own vector at the kinds of its items, and no other map (`MapEffect`); every list stays in
  strictly ascending order, so the map says all there is to say about it.

  Beyond what the calls of a vector need, a call must not merge a sorted vector into one that is empty,
  nor one whose first or last item equals the opposite end of the other's: there the list would no
  longer be a map.
-/
import Codina.Utils.SortedVector
import Codina.Utils.VectorRuns

namespace Codina.Utils.SortedVectorImpl

open Codina.Faults Codina.Faults.Prog Codina.Refcount Codina.Slots Codina.OrderedList Codina.Runs
open Codina.Utils.SharedBuffer
open Codina.Utils.VectorImpl (World Arg Call Denotes Rep Exhausted Oversize on withVector
  ensures_withVector denotes_generous ample numbers byValue)

variable {α : Type}

/-! ## Calls -/

inductive SortedCall (α : Type) where
  | vector (c : Call α)
  | add (i : Nat) (item : Arg α)
  | remove (i : Nat) (item : Arg α)
  | merge (i j : Nat)
  | mergeSorted (i j : Nat)

/-- The functions of a vector that a sorted vector has too. -/
def KeepsOrder : Call α → Prop
  | .new | .copy _ | .assign _ _ | .finish _ | .removeItemsAt _ _ _ | .clear _ | .setCapacity _ _ => True
  | _ => False

section

variable (P : Platform) (T : Traits α) (do_compare : α → α → Int)

def call : SortedCall α → Prog (World α) Int
  | .vector c => VectorImpl.call P T c
  | .add i item => do
    let w ← read
    on i fun this => add P T do_compare this (item.src w)
  | .remove i item => do
    let w ← read
    on i fun this => remove P T do_compare this (item.src w)
  | .merge i j => withVector j fun vector => on i fun this => merge P T do_compare this vector
  | .mergeSorted i j => withVector j fun vector => on i fun this => mergeSorted P T do_compare this vector

def step (w : World α) (c : SortedCall α) : Option (World α) :=
  match call P T do_compare c w with
  | .returns (_, w') => some w'
  | _ => none

/-- The items of vector `i`. -/
def list (w : World α) (i : Nat) : List α := w.items.getD i []

/-- The map of vector `i`. -/
def map (w : World α) (i : Nat) (y : α) : Option α := lookup do_compare y (list w i)

/-- Two vectors that can be merged. -/
def Pair (w : World α) (i j : Nat) : Prop :=
  i < w.vectors.length ∧ j < w.vectors.length ∧ j ≠ i ∧ w.size i + w.size j < 0x80000000

def Allowed (w : World α) : SortedCall α → Prop
  | .vector c => VectorImpl.Allowed T w c ∧ KeepsOrder c
  | .add i item => i < w.vectors.length ∧ w.size i < 0x80000000 ∧ item.Apart w i ∧ item.length = 1
  | .remove i item => i < w.vectors.length ∧ w.size i < 0x80000000 ∧ item.Apart w i ∧ item.length = 1
  | .merge i j => Pair w i j
  | .mergeSorted i j => Pair w i j ∧ (list w j ≠ [] → list w i ≠ []) ∧
      ∀ hl hm, EndsDiffer do_compare (list w i) (list w j) hl hm

/-- The number of items a call asks room for. -/
def SortedCall.room (w : World α) : SortedCall α → Nat
  | .vector c => c.room w
  | .add i _ => w.size i + 1
  | .remove _ _ => 0
  | .merge i j => w.size i + w.size j
  | .mergeSorted i j => w.size i + w.size j

/-! ## Effects -/

variable (R : Prop)

/-- All items of list `j` put into list `i`, or the first of them. -/
def MergeEffect (ls : List (List α)) (i j : Nat) (r : Int) (ls' : List (List α)) : Prop :=
  (0 ≤ r ∧ ls' = ls.set i (putAll do_compare (ls.getD j []) (ls.getD i []))) ∨
  (r = NO_MEMORY ∧ R ∧ ∃ n < (ls.getD j []).length,
    ls' = ls.set i (putAll do_compare ((ls.getD j []).take n) (ls.getD i [])))

/-- What a call with result `r` makes of the lists. -/
def Effect (ls : List (List α)) : SortedCall α → Int → List (List α) → Prop
  | .vector c, r, ls' => VectorImpl.Effect T R ls c r ls'
  | .add i item, r, ls' => ∃ x, item.values ls = [x] ∧
    ((r = order do_compare x (ls.getD i []) ∧ ls' = ls.set i (put do_compare x (ls.getD i []))) ∨
      (r = NO_MEMORY ∧ ls' = ls ∧ R))
  | .remove i item, r, ls' => ∃ x, item.values ls = [x] ∧
    ((lookup do_compare x (ls.getD i []) = none ∧ r = NAME_NOT_FOUND ∧ ls' = ls) ∨
      (lookup do_compare x (ls.getD i []) ≠ none ∧ r = order do_compare x (ls.getD i []) ∧
        (ls' = ls.set i (erase do_compare x (ls.getD i [])) ∨ (ls' = ls ∧ R))))
  | .merge i j, r, ls' => MergeEffect do_compare R ls i j r ls'
  | .mergeSorted i j, r, ls' => MergeEffect do_compare R ls i j r ls'

end

/-! ## One call on the lists -/

variable {P : Platform} {T : Traits α} {do_compare : α → α → Int} {w : World α} {ls ls' : List (List α)}
  {i j : Nat} {l : List α}

/-- Every list is a map. -/
def AllAscending (cmp : α → α → Int) (ls : List (List α)) : Prop := ∀ l ∈ ls, Ascending cmp l

theorem AllAscending.getD (ha : AllAscending do_compare ls) (i : Nat) :
    Ascending do_compare (ls.getD i []) := by
  rw [List.getD_eq_getElem?_getD]
  cases hi : ls[i]? with
  | none => exact List.Pairwise.nil
  | some l => exact ha l (List.mem_of_getElem? hi)

theorem AllAscending.set (ha : AllAscending do_compare ls) (hl : Ascending do_compare l) (i : Nat) :
    AllAscending do_compare (ls.set i l) := by
  intro m hm
  rcases List.mem_or_eq_of_mem_set hm with hm | rfl
  · exact ha m hm
  · exact hl

theorem AllAscending.append (ha : AllAscending do_compare ls) (hl : Ascending do_compare l) :
    AllAscending do_compare (ls ++ [l]) := by
  intro m hm
  rcases List.mem_append.mp hm with hm | hm
  · exact ha m hm
  · rw [List.mem_singleton.mp hm]
    exact hl

/-- What a call ensures on the lists. -/
def Meets (P : Platform) (T : Traits α) (cmp : α → α → Int) (w : World α) (ls : List (List α))
    (c : SortedCall α) : Prop :=
  Ensures (Exhausted P T (c.room w)) (call P T cmp c)
    (fun r w' => ∃ ls', Effect T cmp (Refused P) ls c r ls' ∧ Denotes P T w' ls') w

section

variable (hc : Compares do_compare) (hd : Denotes P T w ls) (ha : AllAscending do_compare ls)

include hc hd ha

theorem add_meets {item : Arg α} (hok : Allowed T do_compare w (.add i item)) :
    Meets P T do_compare w ls (.add i item) := by
  obtain ⟨hi, h31, hap, hone⟩ := hok
  obtain ⟨v, l, os, hV⟩ := hd.view hi
  obtain ⟨hsup, hlen⟩ := hV.supplies hap
  obtain ⟨x, hx⟩ := List.length_eq_one_iff.mp (hlen.trans hone)
  rw [hx] at hsup
  have hal : Ascending do_compare l := hV.list ▸ ha.getD i
  have hroom : Exhausted P T (l.length + 1) → Exhausted P T (w.size i + 1) := by
    rw [hV.size]
    exact id
  rw [hV.size] at h31
  refine ensures_bind (ensures_read (hV.on ((add_spec hc hV.rep hal hsup h31 hroom).mono ?_)))
  rintro r h' (⟨hr, hrep⟩ | ⟨hr, hrep, href, -⟩)
  · exact ⟨_, ⟨x, hx, .inl ⟨hV.list.symm ▸ hr, hV.list.symm ▸ rfl⟩⟩, hV.update _ _ _ hrep⟩
  · exact ⟨ls, ⟨x, hx, .inr ⟨hr, rfl, href⟩⟩, hV.same hrep⟩

theorem remove_meets {item : Arg α} (hok : Allowed T do_compare w (.remove i item)) :
    Meets P T do_compare w ls (.remove i item) := by
  obtain ⟨hi, h31, hap, hone⟩ := hok
  obtain ⟨v, l, os, hV⟩ := hd.view hi
  obtain ⟨hsup, hlen⟩ := hV.supplies hap
  obtain ⟨x, hx⟩ := List.length_eq_one_iff.mp (hlen.trans hone)
  rw [hx] at hsup
  have hal : Ascending do_compare l := hV.list ▸ ha.getD i
  rw [hV.size] at h31
  refine ensures_bind (ensures_read (hV.on ((remove_spec hc hV.rep hal hsup h31 id).mono ?_)))
  rintro r h' (⟨hnone, rfl, rfl⟩ | ⟨hsome, hr, hrep | ⟨hrep, href⟩⟩)
  · exact ⟨ls, ⟨x, hx, .inl ⟨hV.list.symm ▸ hnone, rfl, rfl⟩⟩, hV.same hV.rep⟩
  · exact ⟨_, ⟨x, hx, .inr ⟨hV.list.symm ▸ hsome, hV.list.symm ▸ hr, .inl rfl⟩⟩,
      hV.list.symm ▸ hV.update _ _ _ hrep⟩
  · exact ⟨ls, ⟨x, hx, .inr ⟨hV.list.symm ▸ hsome, hV.list.symm ▸ hr, .inr ⟨rfl, href⟩⟩⟩, hV.same hrep⟩

omit hc in
/-- The two vectors of a merge. -/
theorem merging {f : VectorImpl → VectorImpl → SharedBuffer.M α (VectorImpl × Int)} (hp : Pair w i j)
    (hf : ∀ v u l m os, ls.getD i [] = l → ls.getD j [] = m → Rep P T w.memory v l os →
      Ascending do_compare l → Ascending do_compare m → VectorImpl.own P T u m ∈ os →
      u.mCount = m.length → (u.mStorage = none → m = []) → l.length + m.length < 0x80000000 →
      Ensures (Exhausted P T (l.length + m.length)) (f v u) (fun r h' =>
        (0 ≤ r.2 ∧ Rep P T h' r.1 (putAll do_compare m l) os) ∨
        (r.2 = NO_MEMORY ∧ Refused P ∧
          ∃ n < m.length, Rep P T h' r.1 (putAll do_compare (m.take n) l) os)) w.memory) :
    Ensures (Exhausted P T (w.size i + w.size j)) (withVector j fun vector => on i fun this => f this vector)
      (fun r w' => ∃ ls', MergeEffect do_compare (Refused P) ls i j r ls' ∧ Denotes P T w' ls') w := by
  obtain ⟨hi, hj, hji, h31⟩ := hp
  obtain ⟨v, l, os, hV⟩ := hd.view hi
  obtain ⟨u, m, hu, hm, hown, hcount, hnull⟩ := hV.other j hj hji
  have hsize : w.size j = m.length := by
    rw [World.size, hu]
    exact hcount
  rw [hV.size, hsize] at h31 ⊢
  refine ensures_withVector hu (hV.on ?_)
  refine (hf v u l m os hV.list hm hV.rep (hV.list ▸ ha.getD i) (hm ▸ ha.getD j) hown hcount hnull
    h31).mono ?_
  rintro r h' (⟨hr, hrep⟩ | ⟨hr, href, n, hn, hrep⟩)
  · refine ⟨_, .inl ⟨hr, rfl⟩, ?_⟩
    rw [hV.list, hm]
    exact hV.update _ _ _ hrep
  · refine ⟨_, .inr ⟨hr, href, n, hm.symm ▸ hn, rfl⟩, ?_⟩
    rw [hV.list, hm]
    exact hV.update _ _ _ hrep

theorem merge_meets (hok : Allowed T do_compare w (.merge i j)) :
    Meets P T do_compare w ls (.merge i j) := by
  refine merging hd ha hok ?_
  intro v u l m os _ _ hr hal _ hown hcount hnull h31
  refine (merge_spec hc hr hal hown hcount hnull h31 id).mono ?_
  rintro r h' (⟨hres, hrep⟩ | hfail)
  · exact .inl ⟨hres.symm ▸ Int.le_refl 0, hrep⟩
  · exact .inr hfail

theorem mergeSorted_meets (hok : Allowed T do_compare w (.mergeSorted i j)) :
    Meets P T do_compare w ls (.mergeSorted i j) := by
  obtain ⟨hp, hne, hends⟩ := hok
  refine merging hd ha hp ?_
  intro v u l m os hl hm hr hal ham hown hcount hnull h31
  unfold list at hne hends
  rw [hd.items_eq, hl, hm] at hne hends
  by_cases hm0 : m = []
  · subst hm0
    refine ensures_ite (fun h0 => absurd hcount h0) fun _ => ?_
    exact ensures_pure (.inl ⟨Int.le_refl 0, hr⟩)
  · rw [← joined_eq_putAll (hne hm0) hm0 hc hal ham (hends (hne hm0) hm0)]
    exact mergeSorted_spec (hne hm0) hm0 hc hr hal hown hcount hnull h31 id

/-- **One call**, in any world of sorted vectors. -/
theorem call_meets {c : SortedCall α} (hok : Allowed T do_compare w c) : Meets P T do_compare w ls c := by
  cases c with
  | vector c => exact VectorImpl.call_meets hd hok.1
  | add i item => exact add_meets hc hd ha hok
  | remove i item => exact remove_meets hc hd ha hok
  | merge i j => exact merge_meets hc hd ha hok
  | mergeSorted i j => exact mergeSorted_meets hc hd ha hok

end

/-! ### Refusals -/

variable {R : Prop}

theorem MergeEffect.mono {R' : Prop} (hR : R → R') {r : Int} (he : MergeEffect do_compare R ls i j r ls') :
    MergeEffect do_compare R' ls i j r ls' :=
  he.imp_right fun hno => ⟨hno.1, hR hno.2.1, hno.2.2⟩

theorem Effect.mono {R' : Prop} (hR : R → R') {c : SortedCall α} {r : Int}
    (he : Effect T do_compare R ls c r ls') : Effect T do_compare R' ls c r ls' := by
  cases c with
  | vector => exact VectorImpl.Effect.mono hR he
  | add =>
    obtain ⟨x, hx, he⟩ := he
    exact ⟨x, hx, he.imp_right fun hno => ⟨hno.1, hno.2.1, hR hno.2.2⟩⟩
  | remove =>
    obtain ⟨x, hx, he⟩ := he
    exact ⟨x, hx, he.imp_right fun hyes =>
      ⟨hyes.1, hyes.2.1, hyes.2.2.imp_right (And.imp_right hR)⟩⟩
  | merge => exact MergeEffect.mono hR he
  | mergeSorted => exact MergeEffect.mono hR he

/-- **One call**, which is excused only by a refusal it meets with itself. -/
theorem call_effect (hc : Compares do_compare) (hd : Denotes P T w ls) (ha : AllAscending do_compare ls)
    {c : SortedCall α} (hok : Allowed T do_compare w c) :
    Ensures (RefusedIn P (fun P => call P T do_compare c) w ∨ Oversize P T (c.room w))
      (call P T do_compare c) (fun r w' => ∃ ls',
        Effect T do_compare (RefusedIn P (fun P => call P T do_compare c) w) ls c r ls' ∧ Denotes P T w' ls')
      w := by
  refine ensures_refusedIn (Q := fun R r w' => ∃ ls', Effect T do_compare R ls c r ls' ∧ Denotes P T w' ls')
    ?_ (call_meets hc hd ha hok) ((call_meets hc (denotes_generous.mpr hd) ha hok).mono ?_)
  · rintro R R' hR r w' ⟨ls', he, hd'⟩
    exact ⟨ls', he.mono hR, hd'⟩
  · rintro r w' ⟨ls', he, hd'⟩
    exact ⟨ls', he, denotes_generous.mp hd'⟩

/-! ### Order -/

/-- A call keeps every list in order. -/
theorem ascending_of_effect (hc : Compares do_compare) (ha : AllAscending do_compare ls)
    {c : SortedCall α} {r : Int} (hok : Allowed T do_compare w c)
    (he : Effect T do_compare R ls c r ls') : AllAscending do_compare ls' := by
  have hmerge : ∀ i j, MergeEffect do_compare R ls i j r ls' → AllAscending do_compare ls' := by
    rintro i j (⟨-, rfl⟩ | ⟨-, -, n, -, rfl⟩)
    · exact ha.set ((ha.getD i).putAll hc _) i
    · exact ha.set ((ha.getD i).putAll hc _) i
  cases c with
  | add i item =>
    obtain ⟨x, -, ⟨-, rfl⟩ | ⟨-, rfl, -⟩⟩ := he
    · exact ha.set ((ha.getD i).put hc x) i
    · exact ha
  | remove i item =>
    obtain ⟨x, -, ⟨-, -, rfl⟩ | ⟨-, -, rfl | ⟨rfl, -⟩⟩⟩ := he
    · exact ha
    · exact ha.set ((ha.getD i).erase hc x) i
    · exact ha
  | merge i j => exact hmerge i j he
  | mergeSorted i j => exact hmerge i j he
  | vector c =>
    have hnil : Ascending do_compare ([] : List α) := List.Pairwise.nil
    cases c with
    | new =>
      obtain rfl := he
      exact ha.append hnil
    | copy j =>
      obtain rfl := he
      exact ha.append (ha.getD j)
    | assign i j =>
      obtain rfl := he
      exact ha.set (ha.getD j) i
    | finish i =>
      obtain rfl := he
      exact ha.set hnil i
    | removeItemsAt i index count =>
      replace he : if _ then _ else _ := he
      by_cases hw : index + count ≤ (ls.getD i []).length
      · rw [if_pos hw] at he
        obtain ⟨-, rfl | ⟨rfl, -⟩⟩ := he
        · refine ha.set ((ha.getD i).sublist ?_) i
          have hsub : ((ls.getD i []).take index ++ (ls.getD i []).drop (index + count)).Sublist
              ((ls.getD i []).take index ++ (ls.getD i []).drop index) :=
            (List.drop_sublist_drop_left _ (Nat.le_add_right ..)).append_left _
          rwa [List.take_append_drop] at hsub
        · exact ha
      · rw [if_neg hw] at he
        exact he.2 ▸ ha
    | clear i =>
      obtain rfl | ⟨rfl, -⟩ := he
      · exact ha.set hnil i
      · exact ha
    | setCapacity i n => exact he.1 ▸ ha
    | insertArrayAt | insertVectorAt | insertAt | replaceAt | resize | sort => exact hok.2.elim

/-! ## One call on the maps -/

variable {w' : World α}

/-- The world holds lists that are maps. -/
def Sound (P : Platform) (T : Traits α) (cmp : α → α → Int) (w : World α) : Prop :=
  ∃ ls, Denotes P T w ls ∧ AllAscending cmp ls

theorem sound_step (hc : Compares do_compare) {c : SortedCall α} (hs : Sound P T do_compare w)
    (hok : Allowed T do_compare w c) (hstep : step P T do_compare w c = some w') :
    Sound P T do_compare w' := by
  obtain ⟨ls, hd, ha⟩ := hs
  have hm := call_meets hc hd ha hok
  unfold step at hstep
  cases hcall : call P T do_compare c w with
  | returns r =>
    rw [hcall] at hstep
    cases hstep
    obtain ⟨ls', heff, hd'⟩ := hm.returns hcall
    exact ⟨ls', hd', ascending_of_effect hc ha hok heff⟩
  | aborts =>
    rw [hcall] at hstep
    cases hstep
  | undefined =>
    rw [hcall] at hstep
    cases hstep

section

attribute [local semireducible] search

end

end Codina.Utils.SortedVectorImpl
