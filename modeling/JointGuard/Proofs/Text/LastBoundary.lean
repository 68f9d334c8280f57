import JointGuard.Fault
import Mathlib.Order.Bounds.Basic

/-! # The last boundary within a limit

A name that is too long is cut at its last boundary between characters within the limit
(`cut_at_lastBoundary`).  The characters are taken one by one, and the first without room ends the
name even where a shorter one follows it; every prefix that fits is kept all the same
(`isPrefix_fitting`).  The room that is left is too small for one more character, so it is less than
four bytes. -/

namespace JointGuard.Text

variable {limit : Nat} {s : String}

/-- What fits in front of a text is in front of what is kept of it. -/
theorem isPrefix_fitting {room : Nat} {front cs : List Char} (hfront : front <+: cs)
    (hfits : (String.ofList front).utf8ByteSize ≤ room) : front <+: fitting room cs := by
  -- by induction on what fits: the text then starts with a character that has room
  induction front generalizing room cs with
  | nil => exact List.nil_prefix
  | cons c front ih =>
    obtain ⟨rest, rfl⟩ := hfront
    rw [utf8ByteSize_ofList_cons] at hfits
    rw [List.cons_append, fitting, if_pos (by omega)]
    exact (List.prefix_cons_inj c).2 (ih (List.prefix_append front rest) (by omega))

/-- The boundaries between characters, both ends of the text included, within a number of bytes. -/
def boundariesWithin (limit : Nat) (s : String) : Set s.Pos :=
  {boundary | boundary.offset.byteIdx ≤ limit}

theorem byteIdx_offset_of_splits {boundary : s.Pos} {front back : String}
    (h : boundary.Splits front back) : boundary.offset.byteIdx = front.utf8ByteSize :=
  congrArg String.Pos.Raw.byteIdx h.offset_eq_rawEndPos

/-- The character after the last boundary within the limit reaches beyond the limit. -/
theorem limit_lt_of_isGreatest {stop : s.Pos} (hstop : IsGreatest (boundariesWithin limit s) stop)
    (hend : stop ≠ s.endPos) : limit < stop.offset.byteIdx + 4 := by
  have hbeyond : limit < (stop.next hend).offset.byteIdx :=
    Nat.lt_of_not_le fun hwithin =>
      Std.lt_irrefl (String.Pos.next_le_iff_lt.1 (hstop.2 hwithin))
  have hnext := stop.byteIdx_offset_next hend
  have hwidth := (stop.get hend).utf8Size_le_four
  omega

namespace BoundedText

theorem text_cut (limit : Nat) (s : String) :
    (cut s : BoundedText limit).text = String.ofList (fitting limit s.toList) := rfl

theorem text_cut_eq_iff : (cut s : BoundedText limit).text = s ↔ s.utf8ByteSize ≤ limit :=
  ⟨fun h => h ▸ (cut s : BoundedText limit).fits, text_cut_of_le⟩

theorem exists_splits_cut (limit : Nat) (s : String) :
    ∃ (stop : s.Pos) (rest : String), stop.Splits (cut s : BoundedText limit).text rest := by
  obtain ⟨rest, hrest⟩ := fitting_isPrefix limit s.toList
  have hsplit : s = (cut s : BoundedText limit).text ++ String.ofList rest := by
    rw [text_cut, ← String.ofList_append, hrest, String.ofList_toList]
  exact ⟨_, _, String.Pos.splits_ofEqAppend hsplit⟩

/-- No boundary within the limit lies beyond what is kept. -/
theorem byteIdx_offset_le_of_mem {boundary : s.Pos}
    (hwithin : boundary ∈ boundariesWithin limit s) :
    boundary.offset.byteIdx ≤ (cut s : BoundedText limit).text.utf8ByteSize := by
  have hsplits := boundary.splits
  -- both sides of the boundary become texts of their own, so that the whole can be rewritten
  generalize (s.sliceTo boundary).copy = front, (s.sliceFrom boundary).copy = back at hsplits
  have hsize := byteIdx_offset_of_splits hsplits
  have hfront : front.toList <+: s.toList :=
    ⟨back.toList, by rw [hsplits.eq_append, String.toList_append]⟩
  have hfits : (String.ofList front.toList).utf8ByteSize ≤ limit := by
    rw [String.ofList_toList, ← hsize]
    exact hwithin
  obtain ⟨more, hmore⟩ := isPrefix_fitting hfront hfits
  rw [text_cut, ← hmore, String.ofList_append, String.utf8ByteSize_append, String.ofList_toList,
    hsize]
  exact Nat.le_add_right _ _

theorem isGreatest_of_splits_cut {stop : s.Pos} {rest : String}
    (hstop : stop.Splits (cut s : BoundedText limit).text rest) :
    IsGreatest (boundariesWithin limit s) stop := by
  have hsize := byteIdx_offset_of_splits hstop
  constructor
  · exact hsize.trans_le (cut s : BoundedText limit).fits
  · exact fun boundary hwithin => (byteIdx_offset_le_of_mem hwithin).trans hsize.ge

theorem limit_lt_of_text_cut_ne (h : (cut s : BoundedText limit).text ≠ s) :
    limit < (cut s : BoundedText limit).text.utf8ByteSize + 4 := by
  obtain ⟨stop, rest, hsplits⟩ := exists_splits_cut limit s
  have hend : stop ≠ s.endPos := by
    rintro rfl
    exact h (hsplits.eq_left s.splits_endPos)
  rw [← byteIdx_offset_of_splits hsplits]
  exact limit_lt_of_isGreatest (isGreatest_of_splits_cut hsplits) hend

end BoundedText

end JointGuard.Text

namespace JointGuard
open Text

/-- The name that a fault carries is the name of the joint up to its last boundary within 32 bytes.
It is whole exactly if it fits, has at least 29 bytes if it is not, and is not cut again. -/
theorem cut_at_lastBoundary (s : String) :
    let name : JointName := .cut s
    (∃ stop : s.Pos, name.text = (s.sliceTo stop).copy ∧
      IsGreatest (boundariesWithin 32 s) stop) ∧
    name.text.utf8ByteSize ≤ 32 ∧
    (name.text = s ↔ s.utf8ByteSize ≤ 32) ∧
    (name.text ≠ s → 29 ≤ name.text.utf8ByteSize) ∧
    BoundedText.cut name.text = name := by
  intro name
  obtain ⟨stop, rest, hsplits⟩ := BoundedText.exists_splits_cut 32 s
  refine ⟨⟨stop, hsplits.copy_sliceTo_eq.symm, BoundedText.isGreatest_of_splits_cut hsplits⟩,
    name.fits, BoundedText.text_cut_eq_iff, fun hcut => ?_, BoundedText.cut_text name⟩
  have hroom : 32 < name.text.utf8ByteSize + 4 := BoundedText.limit_lt_of_text_cut_ne hcut
  omega

/-- Twenty-nine bytes, a character of four that has no room, and one of a single byte that would
have. -/
def longName : String := "left_shoulder_roll_gear_motor𝛼2"

theorem cut_at_lastBoundary_longName :
    (BoundedText.cut longName : JointName).text = "left_shoulder_roll_gear_motor" ∧
      (BoundedText.cut longName : JointName).text ≠ longName ∧
      29 ≤ (BoundedText.cut longName : JointName).text.utf8ByteSize := by
  have hcut : (BoundedText.cut longName : JointName).text ≠ longName := by decide +kernel
  obtain ⟨-, -, -, hsize, -⟩ := cut_at_lastBoundary longName
  exact ⟨by decide +kernel, hcut, hsize hcut⟩

end JointGuard
