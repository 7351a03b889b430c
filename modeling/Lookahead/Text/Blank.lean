/-!
Blank tokens: those that are empty or hold white space, in the sense of the Unicode property
White_Space.
-/

namespace Lookahead.Text

/-- Inclusive ranges of code points, in increasing order. -/
def whiteSpace : List (Nat × Nat) :=
  [(0x9, 0xd), (0x20, 0x20), (0x85, 0x85), (0xa0, 0xa0), (0x1680, 0x1680), (0x2000, 0x200a),
   (0x2028, 0x2029), (0x202f, 0x202f), (0x205f, 0x205f), (0x3000, 0x3000)]

def isWhiteSpace (c : Char) : Bool :=
  whiteSpace.any fun (first, last) => first ≤ c.toNat ∧ c.toNat ≤ last

def isBlank (token : String) : Bool :=
  token.toList.isEmpty || token.toList.any isWhiteSpace

theorem isBlank_eq_false_iff {token : String} :
    isBlank token = false ↔ token.toList ≠ [] ∧ ∀ c ∈ token.toList, isWhiteSpace c = false := by
  simp [isBlank]

theorem not_mem_of_dark {text : List Char} (dark : text.any isWhiteSpace = false) {c : Char}
    (white : isWhiteSpace c = true) : c ∉ text := by
  intro member
  rw [List.any_eq_true.2 ⟨c, member, white⟩] at dark
  contradiction

theorem not_mem_of_visible {token : String} (visible : isBlank token = false) {c : Char}
    (white : isWhiteSpace c = true) : c ∉ token.toList :=
  not_mem_of_dark (Bool.or_eq_false_iff.1 visible).2 white

end Lookahead.Text
