/-
  Readers of a buffer with a read position, and when a reader undoes a writer.

  A reader may fail, and leaves its state where it stopped.  `Takes mk r bytes v` says that `r` takes
  exactly `bytes` off the buffer and returns `v`, wherever they stand at the read position and whatever
  comes before and after.  The rules follow the reader's own structure: a reader put together from
  others takes the bytes of its fields one after another (`Takes.field`), so a decoder is compared with
  an encoder field by field.  One field more on either side, and the rules no longer apply.

  The state is a parameter: `mk` builds it from the buffer's contents and the position.  Nothing here
  names a particular format.
-/
import Mathlib.Data.List.Basic

namespace Codina.Codec

variable {β σ ε α α' : Type}

/-- A reader: it fails or returns a value, and leaves its state where it stopped. -/
abbrev Reader (ε σ : Type) := ExceptT ε (StateM σ)

/-- A partial function's value, or an exception that leaves the buffer alone. -/
def ofOption (e : ε) : Option α → Reader ε σ α
  | some v => pure v
  | none => throw e

variable {mk : List β → Nat → σ}

/-- `r` takes exactly `bytes` off the buffer and returns `v`. -/
def Takes (mk : List β → Nat → σ) (r : Reader ε σ α) (bytes : List β) (v : α) : Prop :=
  ∀ pre rest, r (mk (pre ++ (bytes ++ rest)) pre.length) =
    (.ok v, mk (pre ++ (bytes ++ rest)) (pre.length + bytes.length))

/-- A reader that succeeds hands its value and its state on. -/
theorem bind_of_ok {r : Reader ε σ α} {k : α → Reader ε σ α'} {s s' : σ} {v : α}
    (h : r s = (.ok v, s')) : (r >>= k) s = k v s' := by
  simp only [bind, ExceptT.bind, ExceptT.mk, ExceptT.bindCont, StateT.bind, h]

/-- **One part, then the other.** -/
theorem Takes.bind {r : Reader ε σ α} {k : α → Reader ε σ α'} {b b' : List β} {v : α} {w : α'}
    (hr : Takes mk r b v) (hk : Takes mk (k v) b' w) : Takes mk (r >>= k) (b ++ b') w := by
  intro pre rest
  have hfirst := hr pre (b' ++ rest)
  have hthen := hk (pre ++ b) rest
  simp only [List.append_assoc, List.length_append, ← Nat.add_assoc] at hfirst hthen ⊢
  rw [bind_of_ok hfirst, hthen]

/-- A value that takes no bytes. -/
theorem Takes.done (v : α) : Takes mk (pure v : Reader ε σ α) ([] : List (List β)).flatten v := by
  intro pre rest
  rfl

/-- One field of a record, then the others. -/
theorem Takes.field {r : Reader ε σ α} {k : α → Reader ε σ α'} {b : List β} {bs : List (List β)}
    {v : α} {w : α'} (hr : Takes mk r b v) (hk : Takes mk (k v) bs.flatten w) :
    Takes mk (r >>= k) (b :: bs).flatten w :=
  hr.bind hk

/-- A field whose value is checked as it is read. -/
theorem Takes.checked {r : Reader ε σ α} {f : α → Option α'} {e : ε} {b : List β} {v : α} {w : α'}
    (hr : Takes mk r b v) (hf : f v = some w) :
    Takes mk (do ofOption e (f (← r))) b w := by
  intro pre rest
  rw [bind_of_ok (hr pre rest), hf]
  rfl

/-- A field that is there or not, or another one in its place. -/
theorem Takes.ite {c : Prop} [Decidable c] {r r' : Reader ε σ α} {b b' : List β} {v v' : α}
    (hr : Takes mk r b v) (hr' : Takes mk r' b' v') :
    Takes mk (if c then r else r') (if c then b else b') (if c then v else v') := by
  by_cases hc : c
  · rw [if_pos hc, if_pos hc, if_pos hc]
    exact hr
  · rw [if_neg hc, if_neg hc, if_neg hc]
    exact hr'

/-- On these bytes `r` fails with `e`, wherever they stand. -/
def Raises (mk : List β → Nat → σ) (r : Reader ε σ α) (bytes : List β) (e : ε) : Prop :=
  ∀ pre rest, ∃ s, r (mk (pre ++ (bytes ++ rest)) pre.length) = (.error e, s)

theorem Raises.throw (e : ε) (k : α → Reader ε σ α') (bytes : List β) :
    Raises mk (throw e >>= k) bytes e := fun _ _ => ⟨_, rfl⟩

/-- One field of a record, and a failure behind it. -/
theorem Takes.raises {r : Reader ε σ α} {k : α → Reader ε σ α'} {b : List β} {bs : List (List β)}
    {v : α} {e : ε} (hr : Takes mk r b v) (hk : Raises mk (k v) bs.flatten e) :
    Raises mk (r >>= k) (b :: bs).flatten e := by
  intro pre rest
  have hfirst := hr pre (bs.flatten ++ rest)
  obtain ⟨s, hthen⟩ := hk (pre ++ b) rest
  rw [List.append_assoc, List.length_append] at hthen
  rw [List.flatten_cons, List.append_assoc, bind_of_ok hfirst]
  exact ⟨s, hthen⟩

end Codina.Codec
