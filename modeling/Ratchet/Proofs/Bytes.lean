import Ratchet.Tally
import Ratchet.Proofs.Lines

/-!
# The bytes of a text

A text is written character by character. Below 128 a byte is a character of its own, and no other
character has such bytes (`exists_of_mem_ofText`), so the line feeds among the bytes are those of
the text. Texts that hold none and do not end in a carriage return come back as the lines of a
stream (`streamLines_ofText`). With one more carriage return at their end, bytes are text just if
they were (`toText?_append_return`).
-/

namespace Ratchet

namespace Bytes

variable {s : String} {b : UInt8}

theorem ofText_append (s s' : String) : ofText (s ++ s') = ofText s ++ ofText s' := by
  unfold ofText
  rw [String.toByteArray_append, ByteArray.data_append, Array.toList_append]

theorem ofText_eq (s : String) : ofText s = s.toList.flatMap String.utf8EncodeChar := by
  unfold ofText
  rw [← String.utf8Encode_toList, List.utf8Encode, List.toList_data_toByteArray]

/-- Each byte of a longer form is a tag of 128 or more with a remainder that keeps the tag. -/
theorem encode_bytes (c : Char) :
    ∀ b ∈ String.utf8EncodeChar c, b.toNat = c.toNat ∨ 128 ≤ b.toNat := by
  have hval : c.val.toNat = c.toNat := rfl
  have hbyte (n : Nat) : (UInt8.ofNat n).toNat = n % 256 := UInt8.toNat_ofNat'
  unfold String.utf8EncodeChar
  rw [hval]
  dsimp only
  repeat' split
  all_goals
    simp only [List.forall_mem_cons, List.not_mem_nil, false_implies, implies_true, and_true, hbyte]
    omega

theorem exists_of_mem_ofText (h : b ∈ ofText s) (hb : b.toNat < 128) :
    ∃ c ∈ s.toList, c.toNat = b.toNat := by
  rw [ofText_eq] at h
  obtain ⟨c, hc, hmem⟩ := List.mem_flatMap.1 h
  rcases encode_bytes c b hmem with heq | hlarge
  · exact ⟨c, hc, heq.symm⟩
  · exact absurd hlarge (Nat.not_le.2 hb)

theorem not_mem_ofText {c : Char} (hc : c.toNat < 128) (h : c ∉ s.toList) :
    UInt8.ofNat c.toNat ∉ ofText s := fun hmem => by
  have hbyte : (UInt8.ofNat c.toNat).toNat = c.toNat := by
    rw [UInt8.toNat_ofNat']
    omega
  obtain ⟨d, hd, heq⟩ := exists_of_mem_ofText hmem (by omega)
  exact h (Char.toNat_inj.1 (heq.trans hbyte) ▸ hd)

theorem mem_ofText {c : Char} (hc : c.toNat < 128) (h : c ∈ s.toList) :
    UInt8.ofNat c.toNat ∈ ofText s := by
  rw [ofText_eq]
  refine List.mem_flatMap.2 ⟨c, h, ?_⟩
  have hval : c.val.toNat = c.toNat := rfl
  unfold String.utf8EncodeChar
  rw [hval]
  dsimp only
  rw [if_pos (by omega)]
  exact List.mem_singleton_self _

theorem ofText_of_toText? {bytes : Bytes} (h : toText? bytes = some s) : ofText s = bytes := by
  unfold toText? String.fromUTF8? at h
  split at h
  · cases h
    simp [ofText, String.fromUTF8]
  · cases h

theorem getLast?_ofText_ne (h : s.toList.getLast? ≠ some '\r') : (ofText s).getLast? ≠ some 13 := by
  intro hret
  rcases s.toList.eq_nil_or_concat with hnil | ⟨front, c, hlast⟩
  · rw [ofText_eq, hnil] at hret
    cases hret
  · rw [List.concat_eq_append] at hlast
    rw [hlast, List.getLast?_concat] at h
    have hne : String.utf8EncodeChar c ≠ [] :=
      List.ne_nil_of_length_pos (by simp [Char.utf8Size_pos])
    have hmem : (13 : UInt8) ∈ String.utf8EncodeChar c := by
      rw [ofText_eq, hlast, List.flatMap_append, List.flatMap_singleton, List.getLast?_append,
        Option.or_of_isSome (List.getLast?_isSome.2 hne)] at hret
      exact List.mem_of_getLast? hret
    rcases encode_bytes c 13 hmem with heq | hlarge
    · exact h (congrArg some (Char.toNat_inj.1 heq.symm))
    · exact absurd hlarge (by decide)

theorem ofText_push_return (s : String) : ofText (s.push '\r') = ofText s ++ [13] := by
  rw [← String.append_singleton, ofText_append]
  rfl

/-- Bytes that end in a carriage return are text if those in front of it are. -/
theorem toText?_append_return (line : Bytes) :
    toText? (line ++ [13]) = line.toText?.map fun s => s.push '\r' := by
  cases htext : line.toText? with
  | some s =>
    rw [← ofText_of_toText? htext, ← ofText_push_return, toText?_ofText]
    rfl
  | none =>
    refine Option.eq_none_iff_forall_ne_some.2 fun s hs => ?_
    have hbytes : ofText s = line ++ [13] := ofText_of_toText? hs
    have hlast : s.toList.getLast? = some '\r' := Decidable.byContradiction fun h =>
      getLast?_ofText_ne h (by rw [hbytes, List.getLast?_concat])
    obtain ⟨front, hfront⟩ := List.getLast?_eq_some_iff.1 hlast
    have hpush : s = (String.ofList front).push '\r' := by
      simp [← String.toList_inj, hfront]
    rw [hpush, ofText_push_return] at hbytes
    rw [← List.append_cancel_right hbytes, toText?_ofText] at htext
    cases htext

end Bytes

/-- Texts are the lines of the stream that ends each with a line feed. -/
theorem Tally.streamLines_ofText {texts : List String} (hfeed : ∀ s ∈ texts, '\n' ∉ s.toList)
    (hret : ∀ s ∈ texts, s.toList.getLast? ≠ some '\r') :
    streamLines (texts.flatMap fun s => Bytes.ofText (s ++ "\n")) = texts.map Bytes.ofText := by
  have hbytes : (texts.flatMap fun s => Bytes.ofText (s ++ "\n")) =
      (texts.map Bytes.ofText).flatMap (· ++ [10]) := by
    simp only [List.flatMap_map, Bytes.ofText_append]
    rfl
  rw [hbytes]
  refine Text.lines_flatMap (fun l hl => ?_) fun l hl => ?_
  · obtain ⟨s, hs, rfl⟩ := List.mem_map.1 hl
    exact Bytes.not_mem_ofText (c := '\n') (by decide) (hfeed s hs)
  · obtain ⟨s, hs, rfl⟩ := List.mem_map.1 hl
    exact Bytes.getLast?_ofText_ne (hret s hs)

end Ratchet
