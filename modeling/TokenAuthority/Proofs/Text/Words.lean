import Mathlib.Data.List.Basic
import Mathlib.Data.List.TakeWhile
import Mathlib.Tactic.SplitIfs
import TokenAuthority.Text.Blank

/-!
# Where words stand

A word of a text is a run of characters that are not blank and that cannot be made longer on either
side (`WordAt`). A blank cuts a text into two that have nothing to do with each other
(`runs_append_cons`, `runAt_append_cons`), so that all is proved from one blank to the next
(`cut_induction`): the words of a text are those that stand in it, in the order of their places
(`exists_places`). A text is so many words with blanks between and around them
(`runs_eq_nil_iff`, `runs_eq_cons_iff`), two for instance (`words_eq_pair_iff`).
-/

namespace TokenAuthority.Text

/-- A run of characters that are not blank, between blanks or the ends of a text. -/
structure RunAt (s : List Char) (i : Nat) (w : List Char) : Prop where
  nonempty : w ≠ []
  solid : ∀ c ∈ w, ¬ isBlank c
  alone : ∃ before after, s = before ++ (w ++ after) ∧ before.length = i ∧
    (∀ c ∈ before.getLast?, isBlank c) ∧ ∀ c ∈ after.head?, isBlank c

/-- A word stands at the place of a text that some number of characters come before. -/
def WordAt (s : String) (i : Nat) (w : String) : Prop := RunAt s.toList i w.toList

variable {s t w : List Char} {c : Char} {i : Nat}

theorem runs_append_cons (hc : isBlank c) : runs (s ++ c :: t) = runs s ++ runs t := by
  unfold runs
  rw [List.splitOnP_append_cons s t hc, List.filter_append]

theorem runs_of_solid (hs : ∀ c ∈ s, ¬ isBlank c) : runs s = if s = [] then [] else [s] := by
  unfold runs
  rw [List.splitOnP_eq_singleton (by simpa using hs)]
  split_ifs with h <;> simp [h]

theorem runAt_of_solid (hs : ∀ c ∈ s, ¬ isBlank c) : RunAt s i w ↔ i = 0 ∧ w = s ∧ s ≠ [] := by
  constructor
  · rintro ⟨hne, -, before, after, rfl, rfl, hbefore, hafter⟩
    have hbefore' : before = [] := by
      rcases List.eq_nil_or_concat' before with h | ⟨rest, c, rfl⟩
      · exact h
      · exact absurd (hbefore c (by simp)) (hs c (by simp))
    have hafter' : after = [] := by
      rcases after with _ | ⟨c, rest⟩
      · rfl
      · exact absurd (hafter c rfl) (hs c (by simp))
    subst hbefore' hafter'
    simpa using hne
  · rintro ⟨rfl, rfl, hne⟩
    exact ⟨hne, hs, [], [], by simp, rfl, nofun, nofun⟩

/-- No word has a blank in it, so each lies on one side of it. -/
theorem runAt_append_cons (hc : isBlank c) :
    RunAt (s ++ c :: t) i w ↔ RunAt s i w ∨ ∃ j, i = s.length + 1 + j ∧ RunAt t j w := by
  constructor
  · rintro ⟨hne, hsolid, before, after, hs, rfl, hbefore, hafter⟩
    -- No word goes over the blank: it begins behind it, or it ends before.
    obtain ⟨rest, rfl, hrest⟩ | ⟨rest, rfl, hrest⟩ := List.append_eq_append_iff.1 hs
    · right
      rcases rest with _ | ⟨d, rest⟩
      · obtain ⟨d, w, rfl⟩ := List.exists_cons_of_ne_nil hne
        obtain rfl : c = d := (List.cons.inj hrest).1
        exact absurd hc (hsolid c List.mem_cons_self)
      · obtain ⟨rfl, rfl⟩ := List.cons.inj hrest
        refine ⟨rest.length, by simp; omega, hne, hsolid, rest, after, rfl, rfl, ?_, hafter⟩
        intro d hd
        exact hbefore d (by simp_all [List.getLast?_cons])
    · left
      obtain ⟨rest', rfl, hrest'⟩ | ⟨rest', rfl, hrest'⟩ := List.append_eq_append_iff.1 hrest
      · refine ⟨hne, hsolid, before, rest', by simp, rfl, hbefore, fun d hd => hafter d ?_⟩
        rw [hrest']
        exact List.mem_head?_append_of_mem_head? hd
      · rcases rest' with _ | ⟨d, rest'⟩
        · exact ⟨hne, hsolid, before, [], by simp, rfl, hbefore, nofun⟩
        · obtain rfl : c = d := (List.cons.inj hrest').1
          exact absurd hc (hsolid c (by simp))
  · rintro (⟨hne, hsolid, before, after, rfl, rfl, hbefore, hafter⟩ |
      ⟨j, rfl, hne, hsolid, before, after, rfl, rfl, hbefore, hafter⟩)
    · refine ⟨hne, hsolid, before, after ++ c :: t, by simp, rfl, hbefore, ?_⟩
      rcases after with _ | ⟨d, after⟩
      · simpa using hc
      · simpa using hafter
    · refine ⟨hne, hsolid, s ++ c :: before, after, by simp, by simp; omega, ?_, hafter⟩
      rcases List.eq_nil_or_concat' before with rfl | ⟨rest, d, rfl⟩
      · simpa using hc
      · simpa [List.getLast?_cons] using hbefore

/-- A text goes from blank to blank, up to a rest without any. -/
theorem cut_induction {P : List Char → Prop} (solid : ∀ s, (∀ c ∈ s, ¬ isBlank c) → P s)
    (cut : ∀ s c t, (∀ c ∈ s, ¬ isBlank c) → isBlank c → P t → P (s ++ c :: t)) (s : List Char) :
    P s := by
  have hbehind : ∀ s a, (∀ c ∈ a, ¬ isBlank c) → P (a ++ s) := by
    intro s
    induction s with
    | nil =>
      intro a ha
      rw [List.append_nil]
      exact solid a ha
    | cons c s ih =>
      intro a ha
      by_cases hc : isBlank c
      · exact cut a c s ha hc (ih [] nofun)
      · rw [List.append_cons]
        refine ih (a ++ [c]) fun d hd => ?_
        rcases List.mem_append.1 hd with hd | hd
        · exact ha d hd
        · rwa [List.mem_singleton.1 hd]
  exact hbehind s [] nofun

/-- The runs of a text stand in it, each behind the one before, and no others do. -/
theorem exists_places (s : List Char) : ∃ places : List (Nat × List Char),
    places.map Prod.snd = runs s ∧ places.Pairwise (fun p q => p.1 < q.1) ∧
      ∀ i w, RunAt s i w ↔ (i, w) ∈ places := by
  have hrest : ∀ s, (∀ c ∈ s, ¬ isBlank c) → ∃ places : List (Nat × List Char),
      places.map Prod.snd = runs s ∧ places.Pairwise (fun p q => p.1 < q.1) ∧
        (∀ i w, RunAt s i w ↔ (i, w) ∈ places) ∧ ∀ p ∈ places, p.1 = 0 := by
    intro s hs
    refine ⟨if s = [] then [] else [(0, s)], ?_, ?_, fun i w => ?_, ?_⟩
    · rw [runs_of_solid hs]
      split_ifs <;> rfl
    · split_ifs <;> simp
    · rw [runAt_of_solid hs]
      split_ifs with h <;> simp [h]
    · split_ifs <;> simp
  induction s using cut_induction with
  | solid s hs =>
    obtain ⟨places, hruns, hsorted, hmem, -⟩ := hrest s hs
    exact ⟨places, hruns, hsorted, hmem⟩
  | cut s c t hs hc ih =>
    obtain ⟨first, hruns, hsorted, hmem, hzero⟩ := hrest s hs
    obtain ⟨places, hruns', hsorted', hmem'⟩ := ih
    refine ⟨first ++ places.map fun p => (s.length + 1 + p.1, p.2), ?_, ?_, fun i w => ?_⟩
    · rw [runs_append_cons hc, ← hruns, ← hruns', List.map_append, List.map_map]
      rfl
    · refine List.pairwise_append.2 ⟨hsorted, List.pairwise_map.2 ?_, ?_⟩
      · exact hsorted'.imp fun h => by omega
      · intro p hp q hq
        obtain ⟨q, -, rfl⟩ := List.mem_map.1 hq
        rw [hzero p hp]
        omega
    · rw [runAt_append_cons hc, hmem, List.mem_append]
      simp only [hmem', List.mem_map, Prod.mk.injEq, Prod.exists]
      refine or_congr_right ⟨?_, ?_⟩
      · rintro ⟨j, rfl, h⟩
        exact ⟨j, w, h, rfl, rfl⟩
      · rintro ⟨j, _, h, rfl, rfl⟩
        exact ⟨j, rfl, h⟩

theorem mem_runs_iff : w ∈ runs s ↔ ∃ i, RunAt s i w := by
  obtain ⟨places, hruns, -, hmem⟩ := exists_places s
  rw [← hruns]
  simp [hmem]

/-- The words between single spaces are read back. -/
theorem runs_intercalate : ∀ ws : List (List Char),
    (∀ w ∈ ws, w ≠ [] ∧ ∀ c ∈ w, ¬ isBlank c) → runs ([' '].intercalate ws) = ws
  | [], _ => rfl
  | [w], h => by
    obtain ⟨hne, hsolid⟩ := h w List.mem_cons_self
    rw [List.intercalate_singleton, runs_of_solid hsolid, if_neg hne]
  | w :: w' :: ws, h => by
    obtain ⟨⟨hne, hsolid⟩, hws⟩ := List.forall_mem_cons.1 h
    rw [List.intercalate_cons_cons, List.append_assoc, List.singleton_append,
      runs_append_cons (by decide), runs_of_solid hsolid, if_neg hne, runs_intercalate _ hws,
      List.singleton_append]

/-- A text has no words, or it begins with one, behind blanks. -/
theorem exists_run (s : List Char) : (∀ c ∈ s, isBlank c) ∨
    ∃ before w after, s = before ++ (w ++ after) ∧ (∀ c ∈ before, isBlank c) ∧ w ≠ [] ∧
      (∀ c ∈ w, ¬ isBlank c) ∧ ∀ c ∈ after.head?, isBlank c := by
  rcases hrest : s.dropWhile isBlank with _ | ⟨c, rest⟩
  · exact .inl (List.dropWhile_eq_nil_iff.1 hrest)
  · have hc : ¬ isBlank c := by
      have hne : s.dropWhile isBlank ≠ [] := by simp [hrest]
      simpa [hrest] using List.head_dropWhile_not isBlank hne
    refine .inr ⟨s.takeWhile isBlank, c :: rest.takeWhile (!isBlank ·),
      rest.dropWhile (!isBlank ·), ?_, ?_, List.cons_ne_nil c _, ?_, ?_⟩
    · rw [List.cons_append, List.takeWhile_append_dropWhile, ← hrest,
        List.takeWhile_append_dropWhile]
    · exact fun d hd => List.mem_takeWhile_imp hd
    · refine List.forall_mem_cons.2 ⟨hc, fun d hd => ?_⟩
      simpa using List.mem_takeWhile_imp hd
    · intro d hd
      have hnot := List.head?_dropWhile_not (!isBlank ·) rest
      rw [Option.mem_def.1 hd] at hnot
      simpa using hnot

theorem runs_cons_of_blank (hc : isBlank c) : runs (c :: s) = runs s := by
  have hcut : runs ([] ++ c :: s) = runs [] ++ runs s := runs_append_cons hc
  rwa [runs_nil] at hcut

theorem runs_append_of_blank (h : ∀ c ∈ s, isBlank c) : runs (s ++ t) = runs t := by
  induction s with
  | nil => rfl
  | cons c s ih =>
    obtain ⟨hc, hs⟩ := List.forall_mem_cons.1 h
    rw [List.cons_append, runs_cons_of_blank hc, ih hs]

/-- The first word, up to the blank behind it. -/
theorem runs_append_of_solid (hne : w ≠ []) (hw : ∀ c ∈ w, ¬ isBlank c)
    (ht : ∀ c ∈ t.head?, isBlank c) : runs (w ++ t) = w :: runs t := by
  rcases t with _ | ⟨c, t⟩
  · rw [List.append_nil, runs_of_solid hw, if_neg hne, runs_nil]
  · have hc : isBlank c := ht c rfl
    rw [runs_append_cons hc, runs_of_solid hw, if_neg hne, runs_cons_of_blank hc,
      List.singleton_append]

theorem runs_eq_nil_iff : runs s = [] ↔ ∀ c ∈ s, isBlank c := by
  constructor
  · intro h
    obtain hblank | ⟨before, w, after, rfl, hbefore, hne, hw, hafter⟩ := exists_run s
    · exact hblank
    · rw [runs_append_of_blank hbefore, runs_append_of_solid hne hw hafter] at h
      cases h
  · intro h
    have hruns : runs (s ++ []) = runs [] := runs_append_of_blank h
    rwa [List.append_nil] at hruns

theorem runs_eq_cons_iff {ws : List (List Char)} : runs s = w :: ws ↔
    ∃ before after, s = before ++ (w ++ after) ∧ (∀ c ∈ before, isBlank c) ∧ w ≠ [] ∧
      (∀ c ∈ w, ¬ isBlank c) ∧ (∀ c ∈ after.head?, isBlank c) ∧ runs after = ws := by
  constructor
  · intro h
    obtain hblank | ⟨before, w', after, rfl, hbefore, hne, hw, hafter⟩ := exists_run s
    · rw [runs_eq_nil_iff.2 hblank] at h
      cases h
    · rw [runs_append_of_blank hbefore, runs_append_of_solid hne hw hafter] at h
      obtain ⟨rfl, hws⟩ := List.cons.inj h
      exact ⟨before, after, rfl, hbefore, hne, hw, hafter, hws⟩
  · rintro ⟨before, after, rfl, hbefore, hne, hw, hafter, rfl⟩
    rw [runs_append_of_blank hbefore, runs_append_of_solid hne hw hafter]

/-- Two words have blanks between them, and may have some around them. -/
theorem runs_eq_pair_iff {w' : List Char} : runs s = [w, w'] ↔
    ∃ before between after, s = before ++ (w ++ (between ++ (w' ++ after))) ∧
      (∀ c ∈ before, isBlank c) ∧ w ≠ [] ∧ (∀ c ∈ w, ¬ isBlank c) ∧ between ≠ [] ∧
      (∀ c ∈ between, isBlank c) ∧ w' ≠ [] ∧ (∀ c ∈ w', ¬ isBlank c) ∧
      ∀ c ∈ after, isBlank c := by
  constructor
  · intro h
    obtain ⟨before, rest, rfl, hbefore, hne, hw, hhead, h⟩ := runs_eq_cons_iff.1 h
    obtain ⟨between, after, rfl, hbetween, hne', hw', -, h⟩ := runs_eq_cons_iff.1 h
    refine ⟨before, between, after, rfl, hbefore, hne, hw, ?_, hbetween, hne', hw',
      runs_eq_nil_iff.1 h⟩
    -- Without a blank between them, the second word would go on with the first.
    rintro rfl
    obtain ⟨c, w', rfl⟩ := List.exists_cons_of_ne_nil hne'
    exact hw' c List.mem_cons_self (hhead c rfl)
  · rintro ⟨before, between, after, rfl, hbefore, hne, hw, hsome, hbetween, hne', hw', hafter⟩
    obtain ⟨c, between, rfl⟩ := List.exists_cons_of_ne_nil hsome
    refine runs_eq_cons_iff.2 ⟨before, _, rfl, hbefore, hne, hw, ?_, runs_eq_cons_iff.2
      ⟨c :: between, after, rfl, hbetween, hne', hw', ?_, runs_eq_nil_iff.2 hafter⟩⟩
    · rintro _ ⟨⟩
      exact hbetween c List.mem_cons_self
    · exact fun d hd => hafter d (List.mem_of_mem_head? hd)

section Words

variable {a b text word : String}

theorem mem_words_iff : word ∈ words text ↔ ∃ i, WordAt text i word := by
  unfold words WordAt
  rw [← mem_runs_iff]
  constructor
  · intro h
    obtain ⟨w, hw, rfl⟩ := List.mem_map.1 h
    rwa [String.toList_ofList]
  · intro h
    exact List.mem_map.2 ⟨_, h, String.ofList_toList⟩

theorem words_append_blank (hc : isBlank c) :
    words (a ++ String.singleton c ++ b) = words a ++ words b := by
  unfold words
  rw [String.toList_append, String.toList_append, String.toList_singleton, List.append_assoc,
    List.singleton_append, runs_append_cons hc, List.map_append]

theorem words_intercalate {ws : List String} (h : ∀ w ∈ ws, w ≠ "" ∧ ∀ c ∈ w.toList, ¬ isBlank c) :
    words (" ".intercalate ws) = ws := by
  have hsolid : ∀ w ∈ ws.map String.toList, w ≠ [] ∧ ∀ c ∈ w, ¬ isBlank c := by
    intro w hw
    obtain ⟨word, hword, rfl⟩ := List.mem_map.1 hw
    exact ⟨by simpa using (h word hword).1, (h word hword).2⟩
  unfold words
  rw [String.toList_intercalate]
  show List.map String.ofList (runs ([' '].intercalate _)) = ws
  rw [runs_intercalate _ hsolid, List.map_map]
  simp [Function.comp_def]

theorem words_eq_iff {ws : List String} :
    words text = ws ↔ runs text.toList = ws.map String.toList := by
  unfold words
  constructor
  · rintro rfl
    simp [Function.comp_def]
  · intro h
    rw [h]
    simp [Function.comp_def]

/-- Characters between words and around them. -/
def Blanks (s : String) : Prop := ∀ c ∈ s.toList, isBlank c

/-- A text that is a word. -/
structure Solid (s : String) : Prop where
  nonempty : s ≠ ""
  solid : ∀ c ∈ s.toList, ¬ isBlank c

instance : Decidable (Blanks text) :=
  decidable_of_iff (text.toList.all isBlank) List.all_eq_true

theorem solid_iff : Solid text ↔ text ≠ "" ∧ text.toList.all (!isBlank ·) := by
  rw [List.all_eq_true]
  exact ⟨fun h => ⟨h.nonempty, by simpa using h.solid⟩, fun h => ⟨h.1, by simpa using h.2⟩⟩

instance : Decidable (Solid text) := decidable_of_iff' _ solid_iff

theorem words_eq_pair_iff : words text = [a, b] ↔
    ∃ before between after, text = before ++ a ++ between ++ b ++ after ∧ Blanks before ∧
      Solid a ∧ between ≠ "" ∧ Blanks between ∧ Solid b ∧ Blanks after := by
  rw [words_eq_iff, List.map_cons, List.map_cons, List.map_nil, runs_eq_pair_iff]
  constructor
  · rintro ⟨before, between, after, htext, hbefore, hne, hsolid, hsome, hbetween, hne', hsolid',
      hafter⟩
    refine ⟨.ofList before, .ofList between, .ofList after, ?_, by simpa [Blanks] using hbefore,
      ⟨by simpa using hne, hsolid⟩, by simpa using hsome, by simpa [Blanks] using hbetween,
      ⟨by simpa using hne', hsolid'⟩, by simpa [Blanks] using hafter⟩
    rw [← String.toList_inj, htext]
    simp
  · rintro ⟨before, between, after, rfl, hbefore, ha, hsome, hbetween, hb, hafter⟩
    exact ⟨before.toList, between.toList, after.toList, by simp, hbefore,
      by simpa using ha.nonempty, ha.solid, by simpa using hsome, hbetween,
      by simpa using hb.nonempty, hb.solid, hafter⟩

end Words

end TokenAuthority.Text
