import TokenAuthority.Proofs.Text.Words
import TokenAuthority.Scope

/-!
# Scope sets and their texts

What is read from a text are its words, each once, in the order of the places where they first stand
(`ScopeSet.Gathers`). Behind a blank the scopes that were not there before are added
(`scopes_parse_append`). What is displayed is read back if no scope has a blank in it, and not
otherwise (`parse_display_iff`): so the scope of a code stays what it is in every token.
-/

namespace TokenAuthority

section Lists

variable {α : Type} [BEq α] [LawfulBEq α]

theorem eraseDups_filter (p : α → Bool) :
    ∀ l : List α, (l.filter p).eraseDups = l.eraseDups.filter p
  | [] => rfl
  | a :: l => by
    have ih := eraseDups_filter p (l.filter fun b => !b == a)
    rw [List.filter_filter] at ih
    rw [List.eraseDups_cons, List.filter_cons, List.filter_cons, ← ih]
    split_ifs with ha
    · rw [List.eraseDups_cons, List.filter_filter]
      simp only [Bool.and_comm]
    · -- What is not kept is not found among what is kept.
      congr 1
      refine List.filter_congr fun b _ => ?_
      by_cases hb : b = a <;> simp_all
termination_by l => l.length
decreasing_by exact Nat.lt_succ_of_le (List.length_filter_le _ _)

theorem nodup_eraseDups : ∀ l : List α, l.eraseDups.Nodup
  | [] => List.nodup_nil
  | a :: l => by
    rw [List.eraseDups_cons]
    refine List.nodup_cons.2 ⟨fun ha => ?_, nodup_eraseDups _⟩
    simpa using (List.mem_filter.1 (List.mem_eraseDups.1 ha)).2
termination_by l => l.length
decreasing_by exact Nat.lt_succ_of_le (List.length_filter_le _ _)

theorem eraseDups_of_nodup : ∀ {l : List α}, l.Nodup → l.eraseDups = l
  | [], _ => rfl
  | a :: l, h => by
    obtain ⟨ha, hl⟩ := List.nodup_cons.1 h
    have hself : l.filter (fun b => !b == a) = l := by
      refine List.filter_eq_self.2 fun b hb => ?_
      simpa using fun he : b = a => ha (he ▸ hb)
    rw [List.eraseDups_cons, hself, eraseDups_of_nodup hl]

/-- What is kept of items in their places is in the order of the first places. -/
theorem pairwise_eraseDups : ∀ {places : List (Nat × α)},
    places.Pairwise (fun p q => p.1 < q.1) → (places.map Prod.snd).eraseDups.Pairwise fun a b =>
      ∃ i, (i, a) ∈ places ∧ ∀ j, (j, b) ∈ places → i < j
  | [], _ => .nil
  | (i, a) :: places, h => by
    obtain ⟨hfirst, hplaces⟩ := List.pairwise_cons.1 h
    have ih := pairwise_eraseDups (hplaces.filter fun p => !p.2 == a)
    have hmap : (places.filter fun p => !p.2 == a).map Prod.snd =
        (places.map Prod.snd).filter fun b => !b == a := by
      rw [List.filter_map]
      rfl
    rw [hmap] at ih
    have hne : ∀ b ∈ ((places.map Prod.snd).filter fun b => !b == a).eraseDups, b ≠ a := by
      intro b hb
      simpa using (List.mem_filter.1 (List.mem_eraseDups.1 hb)).2
    rw [List.map_cons, List.eraseDups_cons]
    refine List.pairwise_cons.2 ⟨fun b hb => ⟨i, List.mem_cons_self, fun j hj => ?_⟩, ?_⟩
    · rcases List.mem_cons.1 hj with hj | hj
      · exact absurd (congrArg Prod.snd hj) (hne b hb)
      · exact hfirst _ hj
    · refine ih.imp_of_mem fun {b b'} _ hb' ⟨k, hk, hlt⟩ => ?_
      refine ⟨k, List.mem_cons_of_mem _ (List.mem_filter.1 hk).1, fun j hj => ?_⟩
      rcases List.mem_cons.1 hj with hj | hj
      · exact absurd (congrArg Prod.snd hj) (hne b' hb')
      · exact hlt j (List.mem_filter.2 ⟨hj, by simpa using hne b' hb'⟩)
termination_by places => places.length
decreasing_by exact Nat.lt_succ_of_le (List.length_filter_le _ _)

end Lists

namespace ScopeSet

open Text

/-- The scopes of a text: its words, each once, in the order in which they first stand in it. -/
structure Gathers (s : ScopeSet) (raw : String) : Prop where
  contains_iff : ∀ w, s.contains w ↔ ∃ i, WordAt raw i w
  solid : ∀ w ∈ s.scopes, w ≠ "" ∧ ∀ c ∈ w.toList, ¬ isBlank c
  distinct : s.scopes.Nodup
  ordered : s.scopes.Pairwise fun w w' => ∃ i, WordAt raw i w ∧ ∀ j, WordAt raw j w' → i < j

/-- The words of a text, each at its first occurrence. -/
theorem scopes_parse (raw : String) : (parse raw).scopes = (words raw).eraseDups := by
  have hwords : (words raw).filter (· ≠ "") = words raw := by
    refine List.filter_eq_self.2 fun word hword => ?_
    obtain ⟨run, hrun, rfl⟩ := List.mem_map.1 hword
    have := ne_nil_of_mem_runs hrun
    simpa using this
  unfold parse ofList
  rw [hwords]

theorem mem_parse_iff {raw w : String} : w ∈ (parse raw).scopes ↔ ∃ i, WordAt raw i w := by
  rw [scopes_parse, List.mem_eraseDups, mem_words_iff]

theorem ordered_parse (raw : String) : (parse raw).scopes.Pairwise fun w w' =>
    ∃ i, WordAt raw i w ∧ ∀ j, WordAt raw j w' → i < j := by
  obtain ⟨places, hruns, hsorted, hmem⟩ := exists_places raw.toList
  have hplaces : (places.map fun p => (p.1, String.ofList p.2)).map Prod.snd = words raw := by
    rw [words, ← hruns, List.map_map, List.map_map]
    rfl
  have hword : ∀ i w, (i, w) ∈ places.map (fun p => (p.1, String.ofList p.2)) ↔ WordAt raw i w := by
    intro i w
    unfold WordAt
    rw [hmem, List.mem_map]
    constructor
    · rintro ⟨⟨j, run⟩, hp, he⟩
      cases he
      rwa [String.toList_ofList]
    · exact fun hp => ⟨_, hp, by rw [String.ofList_toList]⟩
  have hsorted : (places.map fun p => (p.1, String.ofList p.2)).Pairwise fun p q => p.1 < q.1 :=
    List.pairwise_map.2 hsorted
  have hordered := pairwise_eraseDups hsorted
  simp only [hplaces, hword] at hordered
  rwa [scopes_parse]

theorem gathers_parse (raw : String) : (parse raw).Gathers raw where
  contains_iff w := by rw [contains, List.contains_iff_mem, mem_parse_iff]
  solid w hw := by
    obtain ⟨i, hi⟩ := mem_parse_iff.1 hw
    exact ⟨by simpa using hi.nonempty, hi.solid⟩
  distinct := (ordered_parse raw).imp fun ⟨i, hi, hlt⟩ he => Nat.lt_irrefl i (hlt i (he ▸ hi))
  ordered := ordered_parse raw

/-- Behind a blank the scopes are added that were not there before. -/
theorem scopes_parse_append {c : Char} (hc : isBlank c) (a b : String) :
    (parse (a ++ String.singleton c ++ b)).scopes =
      (parse a).scopes ++ (parse b).scopes.filter fun w => !(parse a).contains w := by
  have hcontains : ∀ w, (words a).elem w = (parse a).contains w := by
    intro w
    rw [Bool.eq_iff_iff, List.elem_iff, contains, List.contains_iff_mem, scopes_parse,
      List.mem_eraseDups]
  rw [scopes_parse, words_append_blank hc, List.eraseDups_append, List.removeAll, eraseDups_filter,
    ← scopes_parse, ← scopes_parse]
  simp only [hcontains]

/-- Scopes without a blank in them are read back. -/
theorem parse_display {s : ScopeSet} (hdistinct : s.scopes.Nodup)
    (hsolid : ∀ w ∈ s.scopes, w ≠ "" ∧ ∀ c ∈ w.toList, ¬ isBlank c) : parse s.display = s := by
  have hscopes : (parse s.display).scopes = s.scopes := by
    rw [scopes_parse, display, words_intercalate hsolid, eraseDups_of_nodup hdistinct]
  obtain ⟨scopes⟩ := s
  exact congrArg mk hscopes

theorem parse_display_ofList (items : List String) :
    parse (ofList items).display = ofList items ↔
      ∀ w ∈ (ofList items).scopes, ∀ c ∈ w.toList, ¬ isBlank c := by
  constructor
  · intro h w hw
    rw [← h] at hw
    exact ((gathers_parse _).solid w hw).2
  · intro h
    refine parse_display (nodup_eraseDups _) fun w hw => ⟨?_, h w hw⟩
    simpa using (List.mem_filter.1 (List.mem_eraseDups.1 hw)).2

/-- The scopes of a text are its words, each once, in the order in which they first stand in it, and
what stands behind a blank adds to what stands before. Their text is read back, as is that of any
items if no blank is in them, and not otherwise. -/
theorem scopes_canonical :
    (∀ raw, (parse raw).Gathers raw) ∧
    (∀ (a b : String) (c : Char), isBlank c → (parse (a ++ String.singleton c ++ b)).scopes =
      (parse a).scopes ++ (parse b).scopes.filter fun w => !(parse a).contains w) ∧
    (∀ raw, parse (parse raw).display = parse raw) ∧
    ∀ items, parse (ofList items).display = ofList items ↔
      ∀ w ∈ (ofList items).scopes, ∀ c ∈ w.toList, ¬ isBlank c := by
  refine ⟨gathers_parse, fun a b c hc => scopes_parse_append hc a b, fun raw => ?_,
    parse_display_ofList⟩
  exact parse_display (gathers_parse raw).distinct (gathers_parse raw).solid

example : (parse "  openid profile\u2003openid\temail ").display = "openid profile email" := by
  decide +kernel

end ScopeSet

end TokenAuthority
