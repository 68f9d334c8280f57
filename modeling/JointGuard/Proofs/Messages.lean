import JointGuard.Proofs.Decimal.Texts

/-! # Messages tell faults apart

A message is what a fault carries between two fixed texts.  Of two wordings either neither opening
continues the other or neither closing does, so that no joint name, whatever it quotes, makes one
message out of two.  Within one wording the fixed texts are cut off, and numbers, which hold no
parenthesis and no space, are cut off from the end. -/

namespace JointGuard
open Text Decimal

/-- The fixed texts around what a fault carries. -/
structure Frame where
  opening : String
  closing : String

namespace Frame

def around (f : Frame) (content : String) : String := f.opening ++ content ++ f.closing

/-- Neither text continues the other at the front, or neither does at the back. -/
def IsApart (f g : Frame) : Prop :=
  (¬f.opening.toList <+: g.opening.toList ∧ ¬g.opening.toList <+: f.opening.toList) ∨
    (¬f.closing.toList <:+ g.closing.toList ∧ ¬g.closing.toList <:+ f.closing.toList)

instance (f g : Frame) : Decidable (f.IsApart g) :=
  inferInstanceAs (Decidable (_ ∨ _))

theorem toList_around (f : Frame) (content : String) :
    (f.around content).toList = f.opening.toList ++ content.toList ++ f.closing.toList := by
  rw [around, String.toList_append, String.toList_append]

theorem around_ne {f g : Frame} (h : f.IsApart g) (s t : String) : f.around s ≠ g.around t := by
  intro heq
  rw [← String.toList_inj, toList_around, toList_around] at heq
  rcases h with ⟨hleft, hright⟩ | ⟨hleft, hright⟩
  · rw [List.append_assoc, List.append_assoc] at heq
    have hf := List.prefix_append f.opening.toList (s.toList ++ f.closing.toList)
    have hg := List.prefix_append g.opening.toList (t.toList ++ g.closing.toList)
    exact (List.prefix_or_prefix_of_prefix (heq ▸ hf) hg).elim hleft hright
  · have hf := List.suffix_append (f.opening.toList ++ s.toList) f.closing.toList
    have hg := List.suffix_append (g.opening.toList ++ t.toList) g.closing.toList
    exact (List.suffix_or_suffix_of_suffix (heq ▸ hf) hg).elim hleft hright

theorem eq_of_around_eq {f : Frame} {s t : String} (h : f.around s = f.around t) : s = t := by
  rw [← String.toList_inj, toList_around, toList_around] at h
  exact String.toList_inj.1 (List.append_cancel_left (List.append_cancel_right h))

end Frame

/-- What follows the last occurrence of a character is cut off. -/
theorem eq_of_append_cons_eq {s t a b : List Char} {c : Char} (ha : c ∉ a) (hb : c ∉ b)
    (h : s ++ c :: a = t ++ c :: b) : s = t ∧ a = b := by
  rcases List.append_eq_append_iff.1 h with ⟨_ | ⟨d, u⟩, rfl, hu⟩ | ⟨_ | ⟨d, u⟩, rfl, hu⟩
  · exact ⟨(List.append_nil s).symm, (List.cons.inj hu).2⟩
  · exact absurd ((List.cons.inj hu).2 ▸ List.mem_append_right u List.mem_cons_self) ha
  · exact ⟨List.append_nil t, (List.cons.inj hu).2.symm⟩
  · exact absurd ((List.cons.inj hu).2 ▸ List.mem_append_right u List.mem_cons_self) hb

/-- A fixed text is found from the end, if its last character does not occur after it. -/
theorem eq_of_append_mark_eq {s t a b mark : String} (front : List Char) (c : Char)
    (hmark : mark.toList = front ++ [c]) (ha : c ∉ a.toList) (hb : c ∉ b.toList)
    (h : s ++ mark ++ a = t ++ mark ++ b) : s = t ∧ a = b := by
  simp only [← String.toList_inj, String.toList_append, hmark, List.append_assoc,
    List.cons_append, List.nil_append] at h ⊢
  rw [← List.append_assoc, ← List.append_assoc t.toList] at h
  obtain ⟨hfront, hback⟩ := eq_of_append_cons_eq ha hb h
  exact ⟨List.append_cancel_right hfront, hback⟩

/-- The kinds of data that faults carry. -/
inductive Payload where
  | joint
  | notice
  | positions
  | magnitude
  | capacity
  | nothing

namespace Payload

def Data : Payload → Type
  | joint => JointName
  | notice => Notice
  | positions => JointName × Float × Float
  | magnitude => Magnitude × Float
  | capacity => Nat
  | nothing => Unit

def text : (p : Payload) → p.Data → String
  | joint, name => BoundedText.text name
  | notice, words => BoundedText.text words
  | positions, (name, min, max) => name.text ++ "': min (" ++ Fault.numbers.text min ++
      ") must be < max (" ++ Fault.numbers.text max
  | magnitude, (limit, value) => limit.key ++ ": " ++ Fault.numbers.text value
  | capacity, room => String.ofList (Nat.toDigits 10 room)
  | nothing, _ => ""

theorem toDigits_injective {m n : Nat} (h : Nat.toDigits 10 m = Nat.toDigits 10 n) : m = n := by
  rw [← Nat.ofDigitChars_ten_toDigits (n := m), h, Nat.ofDigitChars_ten_toDigits]

theorem key_injective {limit other : Magnitude} (h : limit.key = other.key) : limit = other := by
  revert h
  cases limit <;> cases other <;> decide

theorem eq_of_text_eq {p : Payload} {a b : p.Data} (h : p.text a = p.text b) : a = b := by
  cases p with
  | joint => exact BoundedText.text_injective h
  | notice => exact BoundedText.text_injective h
  | positions =>
    obtain ⟨name, min, max⟩ := a
    obtain ⟨name', min', max'⟩ := b
    obtain ⟨hfront, hmax⟩ := eq_of_append_mark_eq ") must be < max ".toList '('
      (by decide +kernel) (mt mem_text_numbers (by decide)) (mt mem_text_numbers (by decide)) h
    obtain ⟨hname, hmin⟩ := eq_of_append_mark_eq "': min ".toList '('
      (by decide +kernel) (mt mem_text_numbers (by decide)) (mt mem_text_numbers (by decide)) hfront
    rw [BoundedText.text_injective hname, eq_of_text_numbers_eq hmin, eq_of_text_numbers_eq hmax]
  | magnitude =>
    obtain ⟨limit, value⟩ := a
    obtain ⟨limit', value'⟩ := b
    obtain ⟨hkey, hvalue⟩ := eq_of_append_mark_eq [':'] ' '
      (by decide +kernel) (mt mem_text_numbers (by decide)) (mt mem_text_numbers (by decide)) h
    rw [key_injective hkey, eq_of_text_numbers_eq hvalue]
  | capacity => exact toDigits_injective (String.ofList_injective h)
  | nothing => rfl

end Payload

/-- The wording of a message, for each kind of fault. -/
inductive Wording where
  | missingVelocityLimits
  | missingEffortLimits
  | missingSoftLimits
  | jointNotFound
  | incompletePositionLimits
  | invalidPositionLimits
  | invalidLimit
  | wraparoundWithPositionLimits
  | invalidSoftLimits
  | unreadable
  | inaccessible
  | notRegistered
  | duplicateJoint
  | nameTooLong
  | registryFull
  deriving DecidableEq

namespace Wording

def all : List Wording :=
  [missingVelocityLimits, missingEffortLimits, missingSoftLimits, jointNotFound,
    incompletePositionLimits, invalidPositionLimits, invalidLimit, wraparoundWithPositionLimits,
    invalidSoftLimits, unreadable, inaccessible, notRegistered, duplicateJoint, nameTooLong,
    registryFull]

def payload : Wording → Payload
  | invalidPositionLimits => .positions
  | invalidLimit => .magnitude
  | unreadable | inaccessible => .notice
  | nameTooLong => .nothing
  | registryFull => .capacity
  | _ => .joint

def fault : (w : Wording) → w.payload.Data → Fault
  | missingVelocityLimits, name => .config (.missingVelocityLimits name)
  | missingEffortLimits, name => .config (.missingEffortLimits name)
  | missingSoftLimits, name => .config (.missingSoftLimits name)
  | jointNotFound, name => .config (.jointNotFound name)
  | incompletePositionLimits, name => .config (.incompletePositionLimits name)
  | invalidPositionLimits, (name, min, max) => .config (.invalidPositionLimits name min max)
  | invalidLimit, (limit, value) => .config (.invalidLimit limit value)
  | wraparoundWithPositionLimits, name => .config (.wraparoundWithPositionLimits name)
  | invalidSoftLimits, name => .config (.invalidSoftLimits name)
  | unreadable, notice => .config (.unreadable notice)
  | inaccessible, notice => .config (.inaccessible notice)
  | notRegistered, name => .lookup (.jointNotFound name)
  | duplicateJoint, name => .registration (.duplicateJoint name)
  | nameTooLong, _ => .registration .nameTooLong
  | registryFull, capacity => .registration (.registryFull capacity)

def stage : Wording → String
  | notRegistered => "Lookup error: "
  | duplicateJoint | nameTooLong | registryFull => "Registration error: "
  | _ => "Configuration error: "

/-- The fixed texts after the name of the stage. -/
def detail : Wording → Frame
  | missingVelocityLimits =>
    ⟨"Cannot enforce limits for joint '", "'. It has no velocity limits specification"⟩
  | missingEffortLimits =>
    ⟨"Cannot enforce limits for joint '", "'. It has no effort limits specification"⟩
  | missingSoftLimits => ⟨"Joint '", "' has no soft limits specification"⟩
  | jointNotFound => ⟨"Joint '", "' not found"⟩
  | incompletePositionLimits =>
    ⟨"Joint '", "' must specify both min_position and max_position, or neither"⟩
  | invalidPositionLimits => ⟨"Invalid position limits for joint '", ")"⟩
  | invalidLimit => ⟨"Invalid ", ". Must be > 0"⟩
  | wraparoundWithPositionLimits => ⟨"Joint '", "' wraps around and cannot have position limits"⟩
  | invalidSoftLimits =>
    ⟨"Invalid soft limits for joint '", "': min must be <= max and gains must be >= 0"⟩
  | unreadable => ⟨"Parse error: ", ""⟩
  | inaccessible => ⟨"I/O error: ", ""⟩
  | notRegistered => ⟨"No limits handle registered for joint '", "'"⟩
  | duplicateJoint => ⟨"Joint '", "' is already registered"⟩
  | nameTooLong => ⟨"Joint name too long (max 32 bytes)", ""⟩
  | registryFull => ⟨"Registry full (capacity ", ")"⟩

def frame (w : Wording) : Frame where
  opening := w.stage ++ w.detail.opening
  closing := w.detail.closing

theorem stage_fault (w : Wording) (data : w.payload.Data) : (w.fault data).stage = w.stage := by
  cases w <;> rfl

theorem detail_fault (w : Wording) (data : w.payload.Data) :
    (w.fault data).detail = w.detail.around (w.payload.text data) := by
  -- a message is joined from the left, the opening to the data first
  have limit (a b c d e : String) : a ++ b ++ c ++ d ++ e = a ++ (b ++ c ++ d) ++ e := by
    simp only [String.append_assoc]
  have limits (a b c d e f g : String) :
      a ++ b ++ c ++ d ++ e ++ f ++ g = a ++ (b ++ c ++ d ++ e ++ f) ++ g := by
    simp only [String.append_assoc]
  cases w with
  | invalidPositionLimits => exact limits _ _ _ _ _ _ _
  | invalidLimit => exact limit _ _ _ _ _
  | unreadable | inaccessible => exact String.append_empty.symm
  | nameTooLong =>
    change _ = _ ++ "" ++ ""
    rw [String.append_empty, String.append_empty]
    rfl
  | _ => rfl

theorem mem_all (w : Wording) : w ∈ all := by
  cases w <;> decide

theorem isApart_of_mem : ∀ w ∈ all, ∀ v ∈ all, w ≠ v → w.frame.IsApart v.frame := by
  decide +kernel

theorem isApart {w v : Wording} (h : w ≠ v) : w.frame.IsApart v.frame :=
  isApart_of_mem w (mem_all w) v (mem_all v) h

theorem message_fault (w : Wording) (data : w.payload.Data) :
    (w.fault data).message = w.frame.around (w.payload.text data) := by
  rw [Fault.message, stage_fault, detail_fault]
  simp only [Frame.around, frame, String.append_assoc]

theorem exists_fault (fault : Fault) : ∃ (w : Wording) (data : w.payload.Data),
    fault = w.fault data := by
  rcases fault with ⟨name | name | name | name | name | ⟨name, min, max⟩ | ⟨limit, value⟩ | name |
    name | notice | notice⟩ | ⟨⟨name⟩⟩ | ⟨name | _ | capacity⟩
  · exact ⟨missingVelocityLimits, name, rfl⟩
  · exact ⟨missingEffortLimits, name, rfl⟩
  · exact ⟨missingSoftLimits, name, rfl⟩
  · exact ⟨jointNotFound, name, rfl⟩
  · exact ⟨incompletePositionLimits, name, rfl⟩
  · exact ⟨invalidPositionLimits, (name, min, max), rfl⟩
  · exact ⟨invalidLimit, (limit, value), rfl⟩
  · exact ⟨wraparoundWithPositionLimits, name, rfl⟩
  · exact ⟨invalidSoftLimits, name, rfl⟩
  · exact ⟨unreadable, notice, rfl⟩
  · exact ⟨inaccessible, notice, rfl⟩
  · exact ⟨notRegistered, name, rfl⟩
  · exact ⟨duplicateJoint, name, rfl⟩
  · exact ⟨nameTooLong, (), rfl⟩
  · exact ⟨registryFull, capacity, rfl⟩

end Wording

/-- Equal messages come from the same kind of fault with the same data, up to the one NaN. -/
theorem message_eq_iff {fault other : Fault} :
    fault.message = other.message ↔ fault = other := by
  refine ⟨fun h => ?_, congrArg Fault.message⟩
  obtain ⟨w, a, rfl⟩ := Wording.exists_fault fault
  obtain ⟨v, b, rfl⟩ := Wording.exists_fault other
  rw [Wording.message_fault, Wording.message_fault] at h
  by_cases hwording : w = v
  · subst hwording
    rw [Payload.eq_of_text_eq (Frame.eq_of_around_eq h)]
  · exact absurd h (Frame.around_ne (Wording.isApart hwording) _ _)

example : (Fault.config (.jointNotFound ⟨"a' has no soft limits", by decide⟩)).message ≠
    (Fault.config (.missingSoftLimits ⟨"a", by decide⟩)).message := by
  decide +kernel

end JointGuard
