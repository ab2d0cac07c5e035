import ZedRegistry.Digest

/-!
# Marks in UTF-8

The bytes of a text character by character: an ASCII byte stands for itself and is
part of no other character.
-/

set_option autoImplicit false

namespace ZedRegistry

theorem asBytes_eq_flatMap (text : String) :
    asBytes text = text.toList.flatMap String.utf8EncodeChar := by
  unfold asBytes
  rw [← String.utf8Encode_toList]
  unfold List.utf8Encode
  rw [List.toList_data_toByteArray]

theorem asBytes_ofList (chars : List Char) :
    asBytes (String.ofList chars) = chars.flatMap String.utf8EncodeChar := by
  rw [asBytes_eq_flatMap, String.toList_ofList]

theorem utf8EncodeChar_ascii {char : Char} {byte : UInt8}
    (member : byte ∈ String.utf8EncodeChar char) (ascii : byte.toNat < 128) :
    String.utf8EncodeChar char = [byte] ∧ char.toNat = byte.toNat := by
  simp only [String.utf8EncodeChar] at member ⊢
  split at member
  · rename_i small
    rw [List.mem_singleton] at member
    subst member
    refine ⟨if_pos small, ?_⟩
    rw [UInt8.toNat_ofNat']
    change char.val.toNat = char.val.toNat % 256
    omega
  · exfalso
    split at member
    · simp only [List.mem_cons, List.not_mem_nil, or_false] at member
      rcases member with rfl | rfl <;> rw [UInt8.toNat_ofNat'] at ascii <;> omega
    · split at member
      · simp only [List.mem_cons, List.not_mem_nil, or_false] at member
        rcases member with rfl | rfl | rfl <;> rw [UInt8.toNat_ofNat'] at ascii <;> omega
      · simp only [List.mem_cons, List.not_mem_nil, or_false] at member
        rcases member with rfl | rfl | rfl | rfl <;> rw [UInt8.toNat_ofNat'] at ascii <;> omega

theorem utf8EncodeChar_mark {mark : Char} (ascii : mark.toNat < 128) :
    String.utf8EncodeChar mark = [mark.toUInt8] := by
  unfold String.utf8EncodeChar
  have small : mark.val.toNat ≤ 127 := Nat.le_of_lt_succ ascii
  exact if_pos small

/-- A byte of a character is a mark exactly when the character is. -/
theorem mark_agrees {mark : Char} (ascii : mark.toNat < 128) (char : Char) :
    ∀ byte ∈ String.utf8EncodeChar char, (byte = mark.toUInt8 ↔ char = mark) := by
  intro byte member
  have encoded := utf8EncodeChar_mark ascii
  have small : mark.toUInt8.toNat = mark.toNat := by
    change mark.val.toNat % 256 = mark.val.toNat
    have below : mark.val.toNat < 128 := ascii
    omega
  constructor
  · intro same
    subst same
    have points := (utf8EncodeChar_ascii member (by omega)).2
    exact Char.toNat_inj.mp (by omega)
  · intro same
    subst same
    rw [encoded] at member
    exact List.mem_singleton.mp member

theorem asBytes_length (text : String) :
    (asBytes text).length = (text.toList.map Char.utf8Size).sum := by
  rw [asBytes_eq_flatMap, List.length_flatMap]
  congr 1
  exact List.map_congr_left fun char _ => String.length_utf8EncodeChar char

theorem count_mark {mark : Char} (ascii : mark.toNat < 128) (text : String) :
    (asBytes text).count mark.toUInt8 = text.toList.count mark := by
  rw [asBytes_eq_flatMap]
  induction text.toList with
  | nil => rfl
  | cons char rest inductionHypothesis =>
      rw [List.flatMap_cons, List.count_append, inductionHypothesis, List.count_cons]
      by_cases same : char = mark
      · subst same
        rw [utf8EncodeChar_mark ascii]
        simp [Nat.add_comm]
      · have absent : mark.toUInt8 ∉ String.utf8EncodeChar char := by
          intro member
          exact same ((mark_agrees ascii char _ member).mp rfl)
        rw [List.count_eq_zero_of_not_mem absent]
        simp [same]

theorem mem_mark {mark : Char} (ascii : mark.toNat < 128) (text : String) :
    mark.toUInt8 ∈ asBytes text ↔ mark ∈ text.toList := by
  rw [← List.count_pos_iff, ← List.count_pos_iff, count_mark ascii]

end ZedRegistry
