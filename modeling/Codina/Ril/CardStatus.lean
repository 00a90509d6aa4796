/-
  The patched `responseSimStatus` of libril: the SIM card's applications, read from the vendor's struct.

  The patch lets a second size through the branch for `RIL_CardStatus_v5`: 436 bytes, which is the same
  20-byte header and eight entries of 52 bytes instead of 32.  The branch casts the response to
  `RIL_CardStatus_v5` all the same, so `applications[i]` is computed with the old entry size.  The
  first application is right.  The second is read from inside the first entry, and so on.

  "Decoded from the i-th entry" is stated as two responses that cannot be told apart: whatever the
  response holds outside the header and its i-th entry, the i-th application written is what that
  entry says (`DecodedFromEntry`).  `card_status_entries_iff` says exactly when that holds.

  `sendSimStatusAppInfo` is libril's own and not part of the patch.  `AppInfo` stands for what it writes
  for one `RIL_AppStatus`.
-/
import Codina.Ril.CallList
import Codina.Ril.Libril

namespace Codina.Ril.CardStatus

open Codina.Bytes Parcel
open Codina.Ril.CallList (Text writeStringToParcel)
open Codina.Ril.Libril (Marshalled)

/-! ## The structs of `ril.h` -/

/-- `app_type`, `app_state`, `perso_substate`, `aid_ptr`, `app_label_ptr`, `pin1_replaced`, `pin1` and
    `pin2`: enumerations, pointers and ints, a word each. -/
def RIL_AppStatus : CType := .struct (List.replicate 8 .uint32)

def RIL_CARD_MAX_APPS : Nat := 8

/-- `card_state`, `universal_pin_state`, the application indices for GSM and CDMA,
    `num_applications`, `applications`. -/
def RIL_CardStatus_v5 : CType :=
  .struct (List.replicate 5 .uint32 ++ [.array RIL_AppStatus RIL_CARD_MAX_APPS])

/-- The same with an application index for IMS behind the other two. -/
def RIL_CardStatus_v6 : CType :=
  .struct (List.replicate 6 .uint32 ++ [.array RIL_AppStatus RIL_CARD_MAX_APPS])

theorem sizes : RIL_AppStatus.size = 32 ∧ RIL_CardStatus_v5.size = 276 ∧
    RIL_CardStatus_v6.size = 280 := by decide

/-- A word of the response: `p_cur->field`. -/
def field (struct : CType) (k : Nat) (response : Mem) : BitVec 32 := load32 response (struct.offset k)

/-- A pointer moved on by `o` bytes. -/
def advance (m : Mem) (o : Nat) : Mem := fun k => m (o + k)

/-! ## libril -/

/-- What `sendSimStatusAppInfo` writes for the `RIL_AppStatus` at the start of the memory. -/
structure AppInfo where
  writeApp : Mem → List Byte
  /-- It reads nothing but the struct. -/
  writeApp_congr : ∀ {m m' : Mem}, (∀ k < RIL_AppStatus.size, m k = m' k) → writeApp m = writeApp m'
  /-- The application's type is among the fields written. -/
  app_type_written : ∀ {m m' : Mem}, writeApp m = writeApp m' → load32 m 0 = load32 m' 0

def RIL_ERRNO_INVALID_RESPONSE : BitVec 32 := -1

section Response

variable (w : AppInfo)

/-- What is written for `applications[0]`, `applications[1]`, …: the entries are as far apart as the
    type of the array says. -/
def appsWritten (applications : Mem) (num_apps : BitVec 32) : List (List Byte) :=
  (List.range num_apps.toInt.toNat).map fun i =>
    w.writeApp (advance applications (RIL_AppStatus.size * i))

def sendSimStatusAppInfo (num_apps : BitVec 32) (applications : Mem) : List Byte :=
  writeInt32 num_apps ++ (appsWritten w applications num_apps).flatten

/-- `responseSimStatus`; the response is `none` where it is `NULL`. -/
def responseSimStatus (response : Option Mem) (responselen : Nat) : Marshalled :=
  match response with
  -- with a length this is refused at once, without one in the last branch
  | none => ⟨RIL_ERRNO_INVALID_RESPONSE, []⟩
  | some m =>
    if responselen = RIL_CardStatus_v6.size then
      let p_cur := RIL_CardStatus_v6
      ⟨0, [writeInt32 (field p_cur 0 m), writeInt32 (field p_cur 1 m), writeInt32 (field p_cur 2 m),
        writeInt32 (field p_cur 3 m), writeInt32 (field p_cur 4 m),
        sendSimStatusAppInfo w (field p_cur 5 m) (advance m (p_cur.offset 6))].flatten⟩
    else if responselen = RIL_CardStatus_v5.size ∨ responselen = 436 then
      let p_cur := RIL_CardStatus_v5
      ⟨0, [writeInt32 (field p_cur 0 m), writeInt32 (field p_cur 1 m), writeInt32 (field p_cur 2 m),
        writeInt32 (field p_cur 3 m), writeInt32 (-1),
        sendSimStatusAppInfo w (field p_cur 4 m) (advance m (p_cur.offset 5))].flatten⟩
    else ⟨RIL_ERRNO_INVALID_RESPONSE, []⟩

/-! ## The response as the vendor laid it out -/

/-- The bytes before the applications. -/
def headerSize : Nat := RIL_CardStatus_v5.offset 5

/-- The size of an entry when eight of them fill the rest of the response. -/
def entrySize (responselen : Nat) : Nat := (responselen - headerSize) / RIL_CARD_MAX_APPS

/-- Where the i-th entry starts. -/
def entryAt (responselen i : Nat) : Nat := headerSize + entrySize responselen * i

/-- `num_applications` as the vendor set it. -/
def numApplications (m : Mem) : Int := (field RIL_CardStatus_v5 4 m).toInt

/-- The applications that the branch for `RIL_CardStatus_v5` writes, one by one. -/
def applicationsWritten (m : Mem) : List (List Byte) :=
  appsWritten w (advance m headerSize) (field RIL_CardStatus_v5 4 m)

/-- The i-th application is decoded from the i-th entry: there is one, and no response with the same
    header and the same i-th entry has another i-th application written, or one that is not what the
    entry says. -/
def DecodedFromEntry (m : Mem) (responselen i : Nat) : Prop :=
  i < RIL_CARD_MAX_APPS ∧ ∀ m' : Mem, (∀ k < headerSize, m' k = m k) →
    (∀ k < entrySize responselen, m' (entryAt responselen i + k) = m (entryAt responselen i + k)) →
    (applicationsWritten w m')[i]? = some (w.writeApp (advance m (entryAt responselen i)))

end Response

/-- **What the branch writes**: the header's fields, the number of applications, and the applications
    themselves. -/
theorem responseSimStatus_v5 (w : AppInfo) (m : Mem) {responselen : Nat}
    (h : responselen = RIL_CardStatus_v5.size ∨ responselen = 436) :
    responseSimStatus w (some m) responselen =
      ⟨0, [writeInt32 (field RIL_CardStatus_v5 0 m), writeInt32 (field RIL_CardStatus_v5 1 m),
        writeInt32 (field RIL_CardStatus_v5 2 m), writeInt32 (field RIL_CardStatus_v5 3 m),
        writeInt32 (-1), writeInt32 (field RIL_CardStatus_v5 4 m) ++
          (applicationsWritten w m).flatten].flatten⟩ := by
  have hv6 : responselen ≠ RIL_CardStatus_v6.size := by
    rcases h with rfl | rfl <;> decide
  show (if responselen = RIL_CardStatus_v6.size then _ else _) = _
  rw [if_neg hv6, if_pos h]
  rfl

/-! ## Where the applications are read -/

theorem headerSize_eq : headerSize = 20 := by decide

theorem entryAt_v5 (i : Nat) : entryAt RIL_CardStatus_v5.size i = 20 + 32 * i := rfl

theorem entryAt_436 (i : Nat) : entryAt 436 i = 20 + 52 * i := rfl

theorem advance_advance (m : Mem) (a b : Nat) : advance (advance m a) b = advance m (a + b) := by
  funext k
  exact congrArg m (Nat.add_assoc a b k).symm

/-- The i-th application is read 32 bytes behind the one before it, whatever the response's size. -/
theorem applicationsWritten_getElem? (w : AppInfo) (m : Mem) {i : Nat}
    (hi : (i : Int) < numApplications m) :
    (applicationsWritten w m)[i]? = some (w.writeApp (advance m (20 + 32 * i))) := by
  unfold numApplications at hi
  unfold applicationsWritten appsWritten
  rw [List.getElem?_map, List.getElem?_range (by omega), Option.map_some, advance_advance,
    headerSize_eq, sizes.1]

/-- The header tells the number of applications. -/
theorem numApplications_congr {m m' : Mem} (h : ∀ k < headerSize, m' k = m k) :
    numApplications m' = numApplications m := by
  have hword : load32 m' (RIL_CardStatus_v5.offset 4) = load32 m (RIL_CardStatus_v5.offset 4) := by
    refine load_congr 4 fun k hk => h _ ?_
    rw [headerSize_eq, show RIL_CardStatus_v5.offset 4 = 16 from rfl]
    omega
  unfold numApplications field
  rw [hword]

/-- An application read at the start of its own entry is decoded from it. -/
theorem decodedFromEntry_of_start (w : AppInfo) (m : Mem) {responselen i : Nat}
    (hi : (i : Int) < numApplications m) (hmax : i < RIL_CARD_MAX_APPS)
    (hstart : entryAt responselen i = 20 + 32 * i)
    (hsize : RIL_AppStatus.size ≤ entrySize responselen) : DecodedFromEntry w m responselen i := by
  refine ⟨hmax, fun m' hheader hentry => ?_⟩
  rw [applicationsWritten_getElem? w m' (by rwa [numApplications_congr hheader]), hstart]
  refine congrArg some (w.writeApp_congr fun k hk => ?_)
  rw [hstart] at hentry
  exact hentry k (by omega)

/-- The second application of a 436-byte response is read before its entry begins. -/
theorem second_not_decoded (w : AppInfo) (m : Mem) (hnum : 1 < numApplications m) :
    ¬ DecodedFromEntry w m 436 1 := by
  rintro ⟨_, h⟩
  -- byte 52 belongs to the first entry, and is where the second application is read
  let m' : Mem := Function.update m 52 (m 52 + 1)
  have hsame : ∀ k, k ≠ 52 → m' k = m k := fun k hk => Function.update_of_ne hk _ _
  have hheader : ∀ k < headerSize, m' k = m k := by
    intro k hk
    rw [headerSize_eq] at hk
    exact hsame k (by omega)
  have hread := h m (fun _ _ => rfl) (fun _ _ => rfl)
  have hread' := h m' hheader fun k hk => hsame _ (by rw [entryAt_436]; omega)
  rw [← hread', applicationsWritten_getElem? w m hnum,
    applicationsWritten_getElem? w m' (by rwa [numApplications_congr hheader])] at hread
  have htype := w.app_type_written (Option.some.inj hread)
  have hbyte := congrArg (byteOf · 0) htype
  simp only [byteOf_load _ 4 0 (show 0 < 4 by decide)] at hbyte
  change m 52 = m' 52 at hbyte
  rw [show m' 52 = m 52 + 1 from Function.update_self ..] at hbyte
  have hnat := congrArg BitVec.toNat hbyte
  rw [BitVec.toNat_add] at hnat
  have hlt := (m 52).isLt
  simp at hnat
  omega

/-- **Every application is decoded from its own entry exactly when there is at most one, or when the
    response is a `RIL_CardStatus_v5` and there are at most eight.** -/
theorem card_status_entries_iff (w : AppInfo) (m : Mem) (responselen : Nat)
    (h : responselen = RIL_CardStatus_v5.size ∨ responselen = 436) :
    (∀ i : Nat, (i : Int) < numApplications m → DecodedFromEntry w m responselen i) ↔
      numApplications m ≤ 1 ∨
        (responselen = RIL_CardStatus_v5.size ∧ numApplications m ≤ RIL_CARD_MAX_APPS) := by
  constructor
  · intro hall
    by_contra hcon
    obtain ⟨hmany, hrest⟩ := not_or.mp hcon
    rcases h with rfl | rfl
    · have hmax : ¬ numApplications m ≤ RIL_CARD_MAX_APPS := fun hle => hrest ⟨rfl, hle⟩
      exact absurd (hall RIL_CARD_MAX_APPS (by omega)).1 (Nat.lt_irrefl _)
    · exact second_not_decoded w m (by omega) (hall 1 (by omega))
  · rintro (hone | ⟨rfl, hmax⟩) i hi
    · have hzero : i = 0 := by omega
      subst hzero
      refine decodedFromEntry_of_start w m hi (by decide) rfl ?_
      rcases h with rfl | rfl <;> decide
    · exact decodedFromEntry_of_start w m hi (by omega) (entryAt_v5 i) (by decide)

/-! ## libril's own `sendSimStatusAppInfo` -/

theorem writeInt32_inj {v v' : BitVec 32} (h : writeInt32 v = writeInt32 v') : v = v' := by
  simp only [writeInt32, List.cons.injEq, and_true] at h
  obtain ⟨h0, h1, h2, h3⟩ := h
  refine eq_of_byteOf (n := 4) fun k hk => ?_
  match k, hk with
  | 0, _ => exact h0
  | 1, _ => exact h1
  | 2, _ => exact h2
  | 3, _ => exact h3

/-- The fields in order; `strings` is the text behind a pointer. -/
def appInfo (strings : BitVec 32 → Option Text) : AppInfo where
  writeApp m := writeInt32 (load32 m 0) ++
    [writeInt32 (load32 m 4), writeInt32 (load32 m 8),
      writeStringToParcel (strings (load32 m 12)), writeStringToParcel (strings (load32 m 16)),
      writeInt32 (load32 m 20), writeInt32 (load32 m 24), writeInt32 (load32 m 28)].flatten
  writeApp_congr := by
    intro m m' h
    have hword : ∀ a, a + 4 ≤ 32 → load32 m a = load32 m' a := by
      intro a ha
      exact load_congr 4 fun k hk => h _ (by rw [sizes.1]; omega)
    rw [hword 0 (by omega), hword 4 (by omega), hword 8 (by omega), hword 12 (by omega),
      hword 16 (by omega), hword 20 (by omega), hword 24 (by omega), hword 28 (by omega)]
  app_type_written := by
    intro m m' h
    exact writeInt32_inj (List.append_inj_left h rfl)

/-- The second of two applications in a `RIL_CardStatus_v5` is decoded from its entry. -/
theorem two_applications_v5 :
    DecodedFromEntry (appInfo fun _ => none) (fun k => if k = 16 then 2 else 0) 276 1 :=
  (card_status_entries_iff (appInfo fun _ => none) (fun k => if k = 16 then 2 else 0) 276
    (Or.inl sizes.2.1.symm)).mpr (Or.inr ⟨sizes.2.1.symm, by decide⟩) 1 (by decide)

/-- Two applications in 436 bytes, the second of type 2 in its entry (byte 72): it is written with
    another type, and all that is written for it does not come from there. -/
theorem second_application_misread :
    numApplications (fun k => if k = 16 ∨ k = 72 then 2 else 0) = 2 ∧
    (applicationsWritten (appInfo fun _ => none) (fun k => if k = 16 ∨ k = 72 then 2 else 0))[1]? ≠
      some ((appInfo fun _ => none).writeApp
        (advance (fun k => if k = 16 ∨ k = 72 then 2 else 0) (entryAt 436 1))) ∧
    ¬ DecodedFromEntry (appInfo fun _ => none) (fun k => if k = 16 ∨ k = 72 then 2 else 0) 436 1 :=
  ⟨by decide, by decide, second_not_decoded _ _ (by decide)⟩

end Codina.Ril.CardStatus
