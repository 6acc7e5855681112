import AccessControl.Ace.Type
import AccessControl.Acl.Revision
import AccessControl.Proofs.Guid
import AccessControl.Proofs.Sid.Text
import Mathlib.Data.List.Nodup

/-!
# Words

Numbers, identifiers and names are written without white space. So each of them ends where the
next blank stands, and none of them holds a line break.
-/

namespace AccessControl

namespace Text

/-- A text without white space. -/
def Word (text : String) : Prop := ∀ c ∈ text.toList, isBlank c = false

instance (text : String) : Decidable (Word text) :=
  List.decidableBAll (fun c => isBlank c = false) text.toList

variable {p : Char → Bool} {a b label r s : String}

/-- What is written before a label ends where the label begins, if it cannot hold the label's first
character. -/
theorem before_label_inj (ha : ∀ c ∈ a.toList, p c = true) (hb : ∀ c ∈ b.toList, p c = true)
    {first : Char} (hlabel : label.toList.head? = some first) (hfirst : p first = false)
    (h : a ++ (label ++ r) = b ++ (label ++ s)) : a = b ∧ r = s := by
  obtain ⟨rest, hrest⟩ := List.head?_eq_some_iff.mp hlabel
  have hends (behind : List Char) : EndsRun p (label.toList ++ behind) := by
    rw [hrest]
    exact endsRun_cons hfirst _
  have hlist := congrArg String.toList h
  simp only [String.toList_append] at hlist
  obtain ⟨hab, hbehind⟩ := run_inj ha hb (hends _) (hends _) hlist
  exact ⟨String.toList_inj.mp hab, String.toList_inj.mp (List.append_cancel_left hbehind)⟩

theorem Word.append (ha : Word a) (hb : Word b) : Word (a ++ b) := by
  unfold Word
  rw [String.toList_append]
  exact List.forall_mem_append.mpr ⟨ha, hb⟩

theorem Word.run (h : Word a) : ∀ c ∈ a.toList, (!isBlank c) = true := by
  intro c hc
  rw [h c hc]
  rfl

/-- A word ends where a blank stands. -/
theorem Word.inj (ha : Word a) (hb : Word b) (hlabel : label.toList.head? = some ' ')
    (h : a ++ (label ++ r) = b ++ (label ++ s)) : a = b ∧ r = s := by
  exact before_label_inj ha.run hb.run hlabel (by decide) h

/-- Words with single blanks between them. -/
theorem words_inj {words words' : List String} (hwords : ∀ word ∈ words, Word word)
    (hwords' : ∀ word ∈ words', Word word) (hne : words ≠ []) (hne' : words' ≠ [])
    (h : [' '].intercalate (words.map String.toList) =
      [' '].intercalate (words'.map String.toList)) : words = words' := by
  have hrun {words : List String} (hwords : ∀ word ∈ words, Word word) :
      ∀ part ∈ words.map String.toList, ∀ c ∈ part, (!isBlank c) = true :=
    List.forall_mem_map.mpr fun word hword => (hwords word hword).run
  have hblank : (!isBlank ' ') = false := by decide
  have hparts := intercalate_inj (p := fun c => !isBlank c) hblank (hrun hwords) (hrun hwords')
    (by simpa using hne) (by simpa using hne') h
  exact map_toList_inj hparts

end Text

open Text (Word)

namespace Numeral

theorem word_decimal (n : Nat) : Word (decimal n) := by
  intro c hc
  rw [decimal, toList_text] at hc
  obtain ⟨d, hd, rfl⟩ := exists_digit_of_mem_toDigits (by decide) hc
  exact isBlank_digitChar d (by omega)

theorem word_markedPadded (width n : Nat) : Word (markedPadded width n) := by
  have hmark : Word "0x" := by decide
  intro c hc
  rw [markedPadded, String.toList_append] at hc
  rcases List.mem_append.mp hc with hc | hc
  · exact hmark c hc
  · obtain ⟨d, hd, rfl⟩ := exists_digit_of_mem_padded (by decide) hc
    exact isBlank_digitChar d hd

end Numeral

theorem Sid.word_text (sid : Sid) : Word sid.text := isBlank_of_mem_text sid

theorem Guid.word_text (guid : Guid) : Word guid.text := by
  intro c hc
  rw [text, String.toList_ofList] at hc
  rcases dash_or_digit_of_mem_chars guid c hc with rfl | ⟨d, hd, rfl⟩
  · rfl
  · exact Numeral.isBlank_digitChar d hd

namespace AceType

theorem mem_all (t : AceType) : t ∈ all := by
  cases t <;> decide

theorem nodup_names : (all.map name).Nodup := by decide

theorem name_injective : Function.Injective name := by
  intro t u h
  exact List.inj_on_of_nodup_map nodup_names (mem_all t) (mem_all u) h

theorem word_name (t : AceType) : Word t.name := by
  have hall : ∀ t ∈ all, Word t.name := by decide
  exact hall t (mem_all t)

end AceType

namespace AclRevision

theorem name_injective : Function.Injective name := by
  intro r s h
  cases r with
  | standard =>
    cases s with
    | standard => rfl
    | directoryService => exact absurd h (by decide)
  | directoryService =>
    cases s with
    | standard => exact absurd h (by decide)
    | directoryService => rfl

theorem word_name (r : AclRevision) : Word r.name := by
  cases r <;> decide

end AclRevision
end AccessControl
