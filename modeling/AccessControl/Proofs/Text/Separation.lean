/-!
# Texts that fall apart again

A run of characters of one class ends where a character of another class stands. So two texts
that begin with such runs agree exactly when the runs agree and what follows them does, and parts
that are joined by a separator of another class are found again in the whole.
-/

namespace AccessControl
namespace Text

variable {α : Type} {p : α → Bool} {a b r s : List α}

/-- What follows a run does not continue it. -/
def EndsRun (p : α → Bool) (rest : List α) : Prop := ∀ c ∈ rest.head?, p c = false

theorem endsRun_nil : EndsRun p [] := nofun

theorem endsRun_cons {c : α} (h : p c = false) (rest : List α) : EndsRun p (c :: rest) := by
  rintro _ ⟨⟩
  exact h

theorem endsRun_of_forall (h : ∀ c ∈ r, p c = false) : EndsRun p r := by
  intro c hc
  exact h c (List.mem_of_mem_head? hc)

theorem run_inj (ha : ∀ c ∈ a, p c = true) (hb : ∀ c ∈ b, p c = true) (hr : EndsRun p r)
    (hs : EndsRun p s) (h : a ++ r = b ++ s) : a = b ∧ r = s := by
  -- On the first run: where it ends, the other one cannot go on.
  induction a generalizing b with
  | nil =>
    cases b with
    | nil => exact ⟨rfl, h⟩
    | cons d b =>
      subst h
      exact absurd (hb d List.mem_cons_self) (ne_true_of_eq_false (hr d rfl))
  | cons c a ih =>
    cases b with
    | nil =>
      subst h
      exact absurd (ha c List.mem_cons_self) (ne_true_of_eq_false (hs c rfl))
    | cons d b =>
      rw [List.cons_append, List.cons_append, List.cons.injEq] at h
      obtain ⟨-, ha⟩ := List.forall_mem_cons.mp ha
      obtain ⟨-, hb⟩ := List.forall_mem_cons.mp hb
      obtain ⟨hab, hrest⟩ := ih ha hb h.2
      exact ⟨by rw [h.1, hab], hrest⟩

theorem forall_mem_intercalate {holds : α → Prop} {separator : List α} {parts : List (List α)}
    (hseparator : ∀ a ∈ separator, holds a) (hparts : ∀ part ∈ parts, ∀ a ∈ part, holds a) :
    ∀ a ∈ separator.intercalate parts, holds a := by
  induction parts with
  | nil => exact List.forall_mem_nil holds
  | cons part parts ih =>
    obtain ⟨hpart, hparts⟩ := List.forall_mem_cons.mp hparts
    cases parts with
    | nil =>
      rw [List.intercalate_singleton]
      exact hpart
    | cons next parts =>
      rw [List.intercalate_cons_cons]
      exact List.forall_mem_append.mpr
        ⟨List.forall_mem_append.mpr ⟨hpart, hseparator⟩, ih hparts⟩

theorem intercalate_cons (separator part : List α) (parts : List (List α)) :
    separator.intercalate (part :: parts) = part ++ parts.flatMap (separator ++ ·) := by
  induction parts generalizing part with
  | nil => simp
  | cons next parts ih =>
    rw [List.intercalate_cons_cons, ih, List.flatMap_cons]
    simp only [List.append_assoc]

theorem map_intercalate {β : Type} (f : α → β) (separator : List α) (parts : List (List α)) :
    (separator.intercalate parts).map f =
      (separator.map f).intercalate (parts.map (List.map f)) := by
  cases parts with
  | nil => rfl
  | cons part parts =>
    rw [intercalate_cons, List.map_cons, intercalate_cons, List.map_append, List.map_flatMap,
      List.flatMap_map]
    simp only [List.map_append]

section Parts

variable {first : α} {separator : List α} {ps qs : List (List α)}

theorem endsRun_flatMap (hfirst : p first = false) (parts : List (List α)) :
    EndsRun p (parts.flatMap (first :: separator ++ ·)) := by
  cases parts with
  | nil => exact endsRun_nil
  | cons part parts => exact endsRun_cons hfirst _

theorem flatMap_separated_inj (hfirst : p first = false) (hps : ∀ part ∈ ps, ∀ c ∈ part, p c = true)
    (hqs : ∀ part ∈ qs, ∀ c ∈ part, p c = true)
    (h : ps.flatMap (first :: separator ++ ·) = qs.flatMap (first :: separator ++ ·)) :
    ps = qs := by
  induction ps generalizing qs with
  | nil =>
    cases qs with
    | nil => rfl
    | cons y qs => simp at h
  | cons x ps ih =>
    cases qs with
    | nil => simp at h
    | cons y qs =>
      obtain ⟨hx, hps⟩ := List.forall_mem_cons.mp hps
      obtain ⟨hy, hqs⟩ := List.forall_mem_cons.mp hqs
      rw [List.flatMap_cons, List.flatMap_cons, List.append_assoc, List.append_assoc] at h
      obtain ⟨hxy, hrest⟩ := run_inj hx hy (endsRun_flatMap hfirst ps) (endsRun_flatMap hfirst qs)
        (List.append_cancel_left h)
      rw [hxy, ih hps hqs hrest]

/-- Parts of one class, joined by a separator that begins with a character of another. -/
theorem intercalate_inj (hfirst : p first = false) (hps : ∀ part ∈ ps, ∀ c ∈ part, p c = true)
    (hqs : ∀ part ∈ qs, ∀ c ∈ part, p c = true) (hp : ps ≠ []) (hq : qs ≠ [])
    (h : (first :: separator).intercalate ps = (first :: separator).intercalate qs) :
    ps = qs := by
  cases ps with
  | nil => exact absurd rfl hp
  | cons x ps =>
    cases qs with
    | nil => exact absurd rfl hq
    | cons y qs =>
      obtain ⟨hx, hps⟩ := List.forall_mem_cons.mp hps
      obtain ⟨hy, hqs⟩ := List.forall_mem_cons.mp hqs
      rw [intercalate_cons, intercalate_cons] at h
      obtain ⟨hxy, hrest⟩ := run_inj hx hy (endsRun_flatMap hfirst ps) (endsRun_flatMap hfirst qs) h
      rw [hxy, flatMap_separated_inj hfirst hps hqs hrest]

end Parts

theorem map_toList_inj {texts texts' : List String}
    (h : texts.map String.toList = texts'.map String.toList) : texts = texts' :=
  (List.map_inj_right fun _ _ => String.toList_inj.mp).mp h

end Text

end AccessControl
