/-
  `gr_loadFont`: the recovery's own font files.

  A file holds the width and the height of the texture, the columns where 96 images begin, and the texture
  itself, a bit for each of its pixels, the highest bit of a byte first.  The bits are unpacked until the texture is
  full.  `read` leaves its buffer alone at the end of the file, so a file that is cut off repeats its last
  byte; one without any byte of the texture leaves the buffer as it was, which is not a value.

  The file is given from its beginning, and `malloc` is taken to succeed.
-/
import Codina.Lib.Raster

namespace Codina.Recovery.FontFile

open Codina.Raster

/-! ## The program -/

/-- What a file decides.  The rest of the font (its type and ascent, and the height once more) and of its
    texture (stride and format) is constant, or told by the width and the height. -/
structure Loaded where
  width : BitVec 32
  height : BitVec 32
  offset : Nat → BitVec 32
  bits : List Byte

/-- The little-endian word `k` of a file. -/
def word (file : List Byte) (k : Nat) : BitVec 32 :=
  file.getD (4 * k + 3) 0 ++ file.getD (4 * k + 2) 0 ++ file.getD (4 * k + 1) 0 ++ file.getD (4 * k) 0

/-- `read(fd, &data, 1)`: the byte that `data` holds after it, if it holds any. -/
def readByte (file : List Byte) (data : Option Byte) : Option Byte :=
  match file with
  | byte :: _ => some byte
  | [] => data

/-- `if (data & (1 << k)) bits[pos++] = 255; else bits[pos++] = 0`. -/
def pixelOf (data : Byte) (k : Nat) : Byte := if data.getLsbD k then 255 else 0

/-- The inner loop, with `k` rounds to go: `bit` is `8 - k`, and `pos` the length of `bits`. -/
def bitLoop (n : Nat) (data : Byte) : Nat → List Byte → List Byte
  | 0, bits => bits
  | k + 1, bits =>
    let bits := bits ++ [pixelOf data k]
    if bits.length = n then bits else bitLoop n data k bits

theorem bitLoop_longer {n : Nat} {data : Byte} : ∀ (k : Nat) (bits : List Byte),
    bits.length ≤ (bitLoop n data k bits).length
  | 0, _ => Nat.le_refl _
  | k + 1, bits => by
    have hone : (bits ++ [pixelOf data k]).length = bits.length + 1 := List.length_append
    have hrest : _ ≤ (bitLoop n data k (bits ++ [pixelOf data k])).length := bitLoop_longer k (bits ++ [pixelOf data k])
    rw [bitLoop]
    split <;> omega

theorem bitLoop_grows {n : Nat} {data : Byte} (bits : List Byte) :
    bits.length < (bitLoop n data 8 bits).length := by
  have hone : (bits ++ [pixelOf data 7]).length = bits.length + 1 := List.length_append
  have hrest : _ ≤ (bitLoop n data 7 (bits ++ [pixelOf data 7])).length := bitLoop_longer 7 (bits ++ [pixelOf data 7])
  rw [bitLoop]
  split <;> omega

/-- The outer loop. -/
def pixels (n : Nat) (file : List Byte) (data : Option Byte) (bits : List Byte) : Option (List Byte) :=
  if bits.length < n then
    match readByte file data with
    | none => none
    | some data => pixels n file.tail (some data) (bitLoop n data 8 bits)
  else some bits
termination_by n - bits.length
decreasing_by
  have hgrows : bits.length < (bitLoop n data 8 bits).length := bitLoop_grows bits
  omega

/-- Nothing where a value is used that was never read.  The offsets are zero before they are read. -/
def gr_loadFont (file : List Byte) : Option Loaded :=
  if file.length < 8 then
    none
  else
    let width := word file 0
    let height := word file 1
    (pixels (width * height).toNat (file.drop 392) none []).map fun bits =>
      { width := width, height := height, bits := bits
        offset := fun element => if element = 96 then width else word file (element + 2) }

/-! ## The texture -/

/-- Pixel `p` of a texture whose bytes begin at `texture`: the last byte stands for those that are missing. -/
def pixelAt (texture : List Byte) (p : Nat) : Byte :=
  pixelOf (texture.getD (min (p / 8) (texture.length - 1)) 0) (7 - p % 8)

/-- The byte that `data` holds after `j` rounds. -/
def held (texture : List Byte) : Nat → Option Byte
  | 0 => none
  | j + 1 => some (texture.getD (min j (texture.length - 1)) 0)

theorem readByte_held {texture : List Byte} (h : texture ≠ []) (j : Nat) :
    readByte (texture.drop j) (held texture j) = some (texture.getD (min j (texture.length - 1)) 0) := by
  have hpos : 0 < texture.length := List.length_pos_iff.mpr h
  by_cases hj : j < texture.length
  · rw [List.drop_eq_getElem_cons hj, readByte, Nat.min_eq_left (by omega), List.getD_eq_getElem?_getD,
      List.getElem?_eq_getElem hj, Option.getD_some]
  · rw [List.drop_of_length_le (Nat.not_lt.mp hj), readByte]
    cases j with
    | zero => exact absurd hpos hj
    | succ j =>
      rw [held, Nat.min_eq_right (by omega), Nat.min_eq_right (by omega)]

/-- **One byte** unpacks into eight pixels, or as many as there is room for. -/
theorem bitLoop_eq {n : Nat} {data : Byte} {f : Nat → Byte} : ∀ (k m : Nat), m < n →
    (∀ i < k, f (m + i) = pixelOf data (k - 1 - i)) →
    bitLoop n data k ((List.range m).map f) = (List.range (min n (m + k))).map f
  | 0, m, hm, _ => by
    rw [bitLoop, Nat.add_zero, Nat.min_eq_right (Nat.le_of_lt hm)]
  | k + 1, m, hm, hf => by
    have hfirst : (List.range m).map f ++ [pixelOf data k] = (List.range (m + 1)).map f := by
      rw [List.range_succ, List.map_append, List.map_singleton]
      exact congrArg _ (congrArg (fun byte => [byte]) (hf 0 (Nat.succ_pos k)).symm)
    rw [bitLoop, hfirst, List.length_map, List.length_range]
    by_cases hfull : m + 1 = n
    · rw [if_pos hfull, Nat.min_eq_left (by omega), hfull]
    · rw [if_neg hfull, bitLoop_eq k (m + 1) (by omega) fun i hi => ?_, show m + 1 + k = m + (k + 1) by omega]
      rw [show m + 1 + i = m + (i + 1) by omega, hf (i + 1) (by omega), show k + 1 - 1 - (i + 1) = k - 1 - i by omega]

/-- The loop from round `j` on. -/
theorem pixels_from {texture : List Byte} (h : texture ≠ []) {n : Nat} (d : Nat) : ∀ j, n ≤ 8 * j + d →
    pixels n (texture.drop j) (held texture j) ((List.range (min n (8 * j))).map (pixelAt texture)) =
      some ((List.range n).map (pixelAt texture)) := by
  induction d with
  | zero =>
    intro j hj
    rw [pixels, List.length_map, List.length_range, if_neg (by omega), Nat.min_eq_left (by omega)]
  | succ d ih =>
    intro j hj
    by_cases hdone : n ≤ 8 * j
    · rw [pixels, List.length_map, List.length_range, if_neg (by omega), Nat.min_eq_left hdone]
    · have hmin : min n (8 * j) = 8 * j := Nat.min_eq_right (by omega)
      rw [pixels, List.length_map, List.length_range, if_pos (by omega), readByte_held h, List.tail_drop, hmin]
      have hbyte : bitLoop n (texture.getD (min j (texture.length - 1)) 0) 8
          ((List.range (8 * j)).map (pixelAt texture)) =
            (List.range (min n (8 * j + 8))).map (pixelAt texture) :=
        bitLoop_eq 8 (8 * j) (by omega) fun i hi => by
          rw [pixelAt, show (8 * j + i) / 8 = j by omega, show 7 - (8 * j + i) % 8 = 8 - 1 - i by omega]
      have hnext := ih (j + 1) (by omega)
      rw [show 8 * (j + 1) = 8 * j + 8 by omega, ← hbyte] at hnext
      exact hnext

/-- What is unpacked of a texture of any bytes. -/
theorem pixels_eq {texture : List Byte} (h : texture ≠ []) (n : Nat) :
    pixels n texture none [] = some ((List.range n).map (pixelAt texture)) := by
  have hall := pixels_from h (n := n) n 0 (by omega)
  rwa [List.drop_zero, Nat.mul_zero, Nat.min_zero] at hall

/-- Of no bytes, only an empty one. -/
theorem pixels_nil (n : Nat) : pixels n [] none [] = if n = 0 then some [] else none := by
  rw [pixels]
  by_cases hn : n = 0
  · rw [if_pos hn, if_neg (by rw [hn]; exact Nat.lt_irrefl 0)]
  · rw [if_neg hn, if_pos (show ([] : List Byte).length < n from Nat.pos_of_ne_zero hn)]
    rfl

/-- The size of the texture, as an unsigned integer counts it. -/
def textureSize (file : List Byte) : Nat := (word file 0 * word file 1).toNat

/-- What a file says. -/
def Describes (file : List Byte) (font : Loaded) : Prop :=
  (font.width = word file 0 ∧ font.height = word file 1) ∧
  (font.offset 96 = font.width ∧ ∀ element < 96, font.offset element = word file (element + 2)) ∧
  font.bits.length = textureSize file ∧
  ∀ p < textureSize file,
    font.bits[p]? = some (pixelOf (file.getD (min (392 + p / 8) (file.length - 1)) 0) (7 - p % 8))

/-- A pixel of the texture, in its place in the file. -/
theorem pixelAt_drop {file : List Byte} (h : 392 < file.length) (p : Nat) :
    pixelAt (file.drop 392) p = pixelOf (file.getD (min (392 + p / 8) (file.length - 1)) 0) (7 - p % 8) := by
  have hplace : 392 + min (p / 8) ((file.drop 392).length - 1) = min (392 + p / 8) (file.length - 1) := by
    rw [List.length_drop]
    omega
  rw [pixelAt, List.getD_eq_getElem?_getD, List.getElem?_drop, hplace, List.getD_eq_getElem?_getD]

/-- **`gr_loadFont`** reads a file exactly where it holds the two sizes and, unless the texture is empty, a
    byte of it.  The texture then has a pixel for each bit it needs, from its own byte of the file or,
    where the file ends too early, from the last one; and nothing behind the texture counts. -/
theorem gr_loadFont_decodes (file : List Byte) :
    (gr_loadFont file = none ↔ file.length < 8 ∨ (file.length ≤ 392 ∧ textureSize file ≠ 0)) ∧
      ∀ font, gr_loadFont file = some font → Describes file font := by
  by_cases hshort : file.length < 8
  · have hnone : gr_loadFont file = none := if_pos hshort
    refine ⟨⟨fun _ => .inl hshort, fun _ => hnone⟩, fun font hfont => ?_⟩
    rw [hnone] at hfont
    cases hfont
  have hload : gr_loadFont file = (pixels (textureSize file) (file.drop 392) none []).map fun bits =>
      ⟨word file 0, word file 1, fun element => if element = 96 then word file 0 else word file (element + 2), bits⟩ :=
    if_neg hshort
  have hoffsets : ∀ element < 96, (if element = 96 then word file 0 else word file (element + 2)) =
      word file (element + 2) := fun element hlt => if_neg (Nat.ne_of_lt hlt)
  by_cases hlong : 392 < file.length
  · have htexture : file.drop 392 ≠ [] := List.ne_nil_of_length_pos (by rw [List.length_drop]; omega)
    rw [hload, pixels_eq htexture]
    refine ⟨⟨fun h => (by cases h), fun h => (by omega)⟩, fun font hfont => ?_⟩
    obtain rfl := Option.some.inj hfont
    refine ⟨⟨rfl, rfl⟩, ⟨rfl, hoffsets⟩, ?_, fun p hp => ?_⟩
    · exact (List.length_map ..).trans List.length_range
    · rw [List.getElem?_map, List.getElem?_range hp]
      exact congrArg some (pixelAt_drop hlong p)
  · rw [hload, List.drop_of_length_le (Nat.not_lt.mp hlong), pixels_nil]
    by_cases hempty : textureSize file = 0
    · rw [if_pos hempty]
      refine ⟨⟨fun h => (by cases h), fun h => (by omega)⟩, fun font hfont => ?_⟩
      obtain rfl := Option.some.inj hfont
      refine ⟨⟨rfl, rfl⟩, ⟨rfl, hoffsets⟩, hempty.symm, fun p hp => ?_⟩
      omega
    · rw [if_neg hempty]
      refine ⟨⟨fun _ => .inr ⟨Nat.not_lt.mp hlong, hempty⟩, fun _ => rfl⟩, fun font hfont => ?_⟩
      cases hfont

end Codina.Recovery.FontFile
