set_option autoImplicit false

/-!
# Bytes of texts

Cutting a text to a number of bytes in UTF-8, in which a character takes one to four of them.
-/

namespace Telepathy.Text

/-- The longest initial part of a text that fits a number of bytes. -/
def takeBytes : Nat → List Char → List Char
  | _, [] => []
  | size, c :: rest =>
    if c.utf8Size ≤ size then c :: takeBytes (size - c.utf8Size) rest else []

/-- A text of characters of one byte each fits as many bytes as it has characters. -/
theorem takeBytes_length {cs : List Char} (h : ∀ c ∈ cs, c.utf8Size = 1) :
    takeBytes cs.length cs = cs := by
  induction cs with
  | nil => rfl
  | cons c rest ih =>
    have hc : c.utf8Size = 1 := h c List.mem_cons_self
    simp [takeBytes, hc, ih fun d hd => h d (List.mem_cons_of_mem _ hd)]

end Telepathy.Text
