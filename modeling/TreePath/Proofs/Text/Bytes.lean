import TreePath.FileSystem
import TreePath.Proofs.Text.Utf8

/-! # Bytes that are text

Bytes are text if they are the bytes of a text, which is then the one they are read as. In UTF-8 a
byte below `0x80` is a character of its own, so that the byte behind it starts the next character.

* `textOfBytes?_eq_some_iff`: what bytes are read as.
* `isUTF8FirstByte_of_prefix`: the byte behind one below `0x80`. -/

namespace TreePath

/-- Bytes are read as the text whose bytes they are. -/
theorem textOfBytes?_eq_some_iff {bytes : List UInt8} {text : String} :
    textOfBytes? bytes = some text ↔ bytes = bytesOfText text := by
  unfold textOfBytes? String.fromUTF8?
  constructor
  · intro h
    split_ifs at h with hvalid
    rw [← Option.some.inj h]
    rfl
  · rintro rfl
    have hvalid : ByteArray.IsValidUTF8 ⟨(bytesOfText text).toArray⟩ := text.isValidUTF8
    rw [dif_pos hvalid]
    rfl

theorem textOfBytes?_bytesOfText (text : String) : textOfBytes? (bytesOfText text) = some text :=
  textOfBytes?_eq_some_iff.mpr rfl

theorem bytesOfText_eq_flatMap (text : String) :
    bytesOfText text = text.toList.flatMap String.utf8EncodeChar :=
  Text.utf8Bytes_eq_flatMap text

namespace Text

/-- The first byte of a text is the first byte of a character. -/
theorem isUTF8FirstByte_of_eq_cons {cs : List Char} {b : UInt8} {bs : List UInt8}
    (h : cs.flatMap String.utf8EncodeChar = b :: bs) : b.IsUTF8FirstByte := by
  cases cs with
  | nil => cases h
  | cons c cs =>
    obtain ⟨x, xs, hx⟩ := List.exists_cons_of_ne_nil (String.utf8EncodeChar_ne_nil (c := c))
    have hpos : 0 < (String.utf8EncodeChar c).length := by
      rw [hx]
      exact Nat.zero_lt_succ _
    have hfirst : (String.utf8EncodeChar c)[0] = x := by simp only [hx, List.getElem_cons_zero]
    rw [List.flatMap_cons, hx, List.cons_append, List.cons.injEq] at h
    rw [← h.1, ← hfirst]
    exact UInt8.isUTF8FirstByte_getElem_zero_utf8EncodeChar

/-- A byte below `0x80` is a character of its own. -/
theorem eq_nil_of_utf8EncodeChar {c : Char} {b : UInt8} {bs : List UInt8} (hb : b < 0x80)
    (h : String.utf8EncodeChar c = b :: bs) : bs = [] := by
  rw [UInt8.lt_iff_toNat_lt] at hb
  unfold String.utf8EncodeChar at h
  generalize c.val.toNat = v at h
  simp only at h
  -- The first of several bytes is `0xc0` or more.
  split_ifs at h <;> obtain ⟨rfl, rfl⟩ := List.cons.inj h
  · rfl
  all_goals
    rw [UInt8.toNat_ofNat'] at hb
    change _ < 128 at hb
    omega

/-- The byte behind one below `0x80` is the first byte of a character. -/
theorem isUTF8FirstByte_of_prefix {s : String} {b d : UInt8} (hb : b < 0x80)
    (h : [b, d] <+: bytesOfText s) : d.IsUTF8FirstByte := by
  obtain ⟨bs, hbs⟩ := h
  rw [bytesOfText_eq_flatMap] at hbs
  generalize s.toList = cs at hbs
  cases cs with
  | nil => cases hbs
  | cons c cs =>
    obtain ⟨x, xs, hx⟩ := List.exists_cons_of_ne_nil (String.utf8EncodeChar_ne_nil (c := c))
    rw [List.flatMap_cons, hx] at hbs
    obtain ⟨rfl, htail⟩ := List.cons.inj hbs
    have hxs : xs = [] := eq_nil_of_utf8EncodeChar hb hx
    subst hxs
    exact isUTF8FirstByte_of_eq_cons htail.symm

end Text

end TreePath
