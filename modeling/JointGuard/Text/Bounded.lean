/-! # Texts of bounded size

A `BoundedText limit` is a text of at most `limit` bytes in UTF-8.  A longer text is refused
(`ofString?`), dropped (`orEmpty`) or cut to its longest prefix of whole characters that fits
(`cut`). -/

namespace JointGuard.Text

structure BoundedText (limit : Nat) where
  text : String
  fits : text.utf8ByteSize ≤ limit
  deriving DecidableEq

/-- The longest prefix of whole characters of at most `room` bytes. -/
def fitting : Nat → List Char → List Char
  | _, [] => []
  | room, c :: cs => if c.utf8Size ≤ room then c :: fitting (room - c.utf8Size) cs else []

theorem fitting_isPrefix (room : Nat) (cs : List Char) : fitting room cs <+: cs := by
  induction cs generalizing room with
  | nil => simp [fitting]
  | cons c cs ih =>
    rw [fitting]
    split
    · exact (List.prefix_cons_inj c).2 (ih _)
    · exact List.nil_prefix

theorem utf8ByteSize_ofList_cons (c : Char) (cs : List Char) :
    (String.ofList (c :: cs)).utf8ByteSize = c.utf8Size + (String.ofList cs).utf8ByteSize := by
  rw [String.ofList_cons, String.utf8ByteSize_append, String.utf8ByteSize_singleton]

theorem utf8ByteSize_fitting_le (room : Nat) (cs : List Char) :
    (String.ofList (fitting room cs)).utf8ByteSize ≤ room := by
  induction cs generalizing room with
  | nil => simp [fitting]
  | cons c cs ih =>
    rw [fitting]
    split
    · rename_i h
      rw [utf8ByteSize_ofList_cons]
      have := ih (room - c.utf8Size)
      omega
    · simp

theorem fitting_of_utf8ByteSize_le {room : Nat} {cs : List Char}
    (h : (String.ofList cs).utf8ByteSize ≤ room) : fitting room cs = cs := by
  induction cs generalizing room with
  | nil => rfl
  | cons c cs ih =>
    rw [utf8ByteSize_ofList_cons] at h
    rw [fitting, if_pos (by omega), ih (by omega)]

namespace BoundedText

variable {limit : Nat}

def empty : BoundedText limit := ⟨"", by simp⟩

def ofString? (s : String) : Option (BoundedText limit) :=
  if h : s.utf8ByteSize ≤ limit then some ⟨s, h⟩ else none

def orEmpty (s : String) : BoundedText limit :=
  (ofString? s).getD empty

def cut (s : String) : BoundedText limit :=
  ⟨String.ofList (fitting limit s.toList), utf8ByteSize_fitting_le limit s.toList⟩

theorem text_injective {a b : BoundedText limit} (h : a.text = b.text) : a = b := by
  cases a; cases b; simp_all

theorem ofString?_eq_some_iff {s : String} {t : BoundedText limit} :
    ofString? s = some t ↔ t.text = s := by
  unfold ofString?
  constructor
  · split
    · rintro ⟨⟩; rfl
    · simp
  · rintro rfl
    simp [t.fits]

/-- A text that fits is not cut. -/
theorem text_cut_of_le {s : String} (h : s.utf8ByteSize ≤ limit) :
    (cut s : BoundedText limit).text = s := by
  change String.ofList (fitting limit s.toList) = s
  rw [fitting_of_utf8ByteSize_le (by rwa [String.ofList_toList]), String.ofList_toList]

@[simp] theorem cut_text (t : BoundedText limit) : cut t.text = t :=
  text_injective (text_cut_of_le t.fits)

end BoundedText

end JointGuard.Text
