import JobShell.Text.Utf8

/-!
# Raw text

What programs hand to each other are bytes. Raw text is a list of characters
each of which stands for the byte of its number, so that bytes can be written,
compared and matched like text.
-/
namespace JobShell

/-- Text whose characters stand for bytes. ASCII text is raw text of itself. -/
abbrev Raw := List Char

namespace Raw

/-- Bytes as raw text. -/
def ofBytes (b : Bytes) : Raw := b.map (fun x => Char.ofNat x.toNat)

/-- The bytes that raw text stands for. -/
def toBytes (r : Raw) : Bytes := r.map (fun c => UInt8.ofNat c.toNat)

/-- The raw text of a text, which has a character for each byte of its UTF-8 form. -/
def ofText (t : Text) : Raw := ofBytes (Utf8.encode t)

/-- The text that raw text stands for, wrong bytes replaced. -/
def toText (r : Raw) : Text := Utf8.decode (toBytes r)

/-- The text that raw text stands for, if its bytes are those of one. -/
def toText? (r : Raw) : Option Text := Utf8.decode? (toBytes r)

/-- Raw text stands for the bytes that it was made of. -/
theorem toBytes_ofBytes (b : Bytes) : toBytes (ofBytes b) = b := by
  induction b with
  | nil => rfl
  | cons x r ih =>
    have small : x.toNat.isValidChar := .inl (Nat.lt_trans x.toNat_lt (by decide))
    have same : (Char.ofNat x.toNat).toNat = x.toNat := by
      unfold Char.ofNat
      rw [dif_pos small]
      rfl
    simp only [toBytes,ofBytes,List.map_cons,same,UInt8.ofNat_toNat] at ih ⊢
    rw [ih]

end Raw
end JobShell
