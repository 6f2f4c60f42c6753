import TokenAuthority.Json.Printer
import TokenAuthority.Json.Reader

/-!
# Reading what was printed

The reader takes the text of a value back to that value (`read_text`), if all its numbers are
integers of at most 64 bits (`Exact`) and it is not nested too deep (`depth`). So does the reader of
some members of an object (`readKept_text`). The proof follows the reader's state over the text: a
part of it that stands for a value leads to a state that holds the value (`Progress.Holds`),
whatever is still open around it.
-/

namespace TokenAuthority.Json

mutual

/-- Every number of a value is an integer of at most 64 bits. -/
def Exact : Json → Prop
  | .int n => -0x8000000000000000 ≤ n ∧ n < 0x10000000000000000
  | .real _ => False
  | .arr items => ExactItems items
  | .obj members => ExactMembers members
  | .null | .bool _ | .str _ => True

def ExactItems : List Json → Prop
  | [] => True
  | v :: vs => Exact v ∧ ExactItems vs

def ExactMembers : List (String × Json) → Prop
  | [] => True
  | (_, v) :: ms => Exact v ∧ ExactMembers ms

end

mutual

/-- How many arrays and objects are open within each other at most. -/
def depth : Json → Nat
  | .arr items => depthItems items + 1
  | .obj members => depthMembers members + 1
  | _ => 0

def depthItems : List Json → Nat
  | [] => 0
  | v :: vs => max (depth v) (depthItems vs)

def depthMembers : List (String × Json) → Nat
  | [] => 0
  | (_, v) :: ms => max (depth v) (depthMembers ms)

end

namespace Progress

variable {keeps : String → Bool}

variable (keeps) in
/-- The state behind some characters. -/
def steps (p : Progress) (s : List Char) : Except Stop Progress := s.foldlM (step keeps) p

@[simp]
theorem steps_nil (p : Progress) : p.steps keeps [] = .ok p := rfl

theorem steps_cons (p : Progress) (c : Char) (s : List Char) :
    p.steps keeps (c :: s) = (p.step keeps c).bind (·.steps keeps s) := rfl

theorem steps_append {p q : Progress} {s t : List Char} (h : p.steps keeps s = .ok q) :
    p.steps keeps (s ++ t) = q.steps keeps t := by
  simp only [steps, List.foldlM_append] at *
  rw [h]
  rfl

theorem feed_of_steps {q : Progress} {v : Json} (hq : q.finish keeps = .ok v) :
    ∀ {s : List Char} {p : Progress} {place : Place}, p.steps keeps s = .ok q →
      p.feed keeps place (s.map some) = .ok v
  | [], p, place, h => by
    cases h
    rw [List.map_nil, feed, hq]
    rfl
  | c :: s, p, place, h => by
    rw [steps_cons] at h
    rcases hc : p.step keeps c with e | r
    · rw [hc] at h
      cases h
    · rw [hc] at h
      simp only [List.map_cons, feed, take, hc]
      exact feed_of_steps hq h

/-- A state in which a value is complete, or is a number that may still go on. -/
inductive Holds (v : Json) (stack : List Frame) : Progress → Prop
  | after : Holds v stack ⟨.after v, stack⟩
  | zero (x : Numeral) : x.value? = some v → Holds v stack ⟨.numeral .zero x, stack⟩
  | integer (x : Numeral) : x.value? = some v → Holds v stack ⟨.numeral .integer x, stack⟩

theorem Holds.finish {v : Json} {stack : List Frame} {p : Progress} (h : Holds v stack p) :
    p.finish keeps = finishValue stack v := by
  cases h with
  | after => rfl
  | zero x hx => simp [Progress.finish, NumeralStage.complete, numeralValue, hx, bind, Except.bind]
  | integer x hx =>
    simp [Progress.finish, NumeralStage.complete, numeralValue, hx, bind, Except.bind]

theorem Holds.step {v : Json} {stack : List Frame} {p : Progress} (h : Holds v stack p) {c : Char}
    (hc : c = ',' ∨ c = ']' ∨ c = '\x7d') : p.step keeps c = follow stack v c := by
  cases h with
  | after => rfl
  | zero x hx =>
    rcases hc with rfl | rfl | rfl <;> simp [Progress.step, numeral, endNumeral, numeralValue, hx]
  | integer x hx =>
    rcases hc with rfl | rfl | rfl <;> simp [Progress.step, numeral, endNumeral, numeralValue, hx]

/-! ## Strings -/

theorem hexDigit_spec {n : Nat} (h : n < 16) :
    hexValue? (hexDigit n) = some n ∧ (hexDigit n).utf8Size = 1 := by
  have : ∀ k : Fin 16, hexValue? (hexDigit k) = some k.val ∧ (hexDigit k).utf8Size = 1 := by decide
  exact this ⟨n, h⟩

theorem steps_escaped (stack : List Frame) (s : OpenString) (c : Char) :
    steps keeps ⟨.string s, stack⟩ (escaped c) = .ok (push stack s c) := by
  unfold escaped
  iterate 7
    split
    · subst c
      rfl
  split
  · next h =>
    obtain ⟨h1, u1⟩ := hexDigit_spec (n := c.toNat / 16) (by omega)
    obtain ⟨h2, u2⟩ := hexDigit_spec (n := c.toNat % 16) (by omega)
    have h0 : hexValue? '0' = some 0 := by decide
    have u0 : '0'.utf8Size = 1 := by decide
    have hc : closeUnit keeps stack s none (16 * (c.toNat / 16) + c.toNat % 16) =
        .ok (push stack s c) := by
      rw [Nat.div_add_mod, closeUnit, if_neg (by omega), Char.ofNat_toNat]
    simp [steps_cons, Progress.step, Except.bind, h0, h1, h2, u0, u1, u2, hc]
  · next h1 h2 _ _ _ _ _ h3 =>
    simp [steps_cons, Progress.step, Except.bind, h1, h2, h3]

theorem steps_flatMap_escaped (stack : List Frame) : ∀ (cs : List Char) (s : OpenString),
    steps keeps ⟨.string s, stack⟩ (cs.flatMap escaped)
      = .ok ⟨.string { s with done := cs.reverse ++ s.done }, stack⟩
  | [], s => rfl
  | c :: cs, s => by
    rw [List.flatMap_cons, steps_append (steps_escaped stack s c), push,
      steps_flatMap_escaped stack cs]
    simp

/-- The rest of a quoted text, behind its first mark. -/
theorem steps_quoted (stack : List Frame) (s : String) (isName : Bool) :
    steps keeps ⟨.string ⟨isName, []⟩, stack⟩ (s.toList.flatMap escaped ++ ['"'])
      = .ok ⟨if isName then .colon s else .after (.str s), stack⟩ := by
  rw [steps_append (steps_flatMap_escaped stack s.toList _)]
  simp [steps_cons, Progress.step, closeString, Except.bind, String.ofList_toList]

/-! ## Numbers -/

/-- The digits of a number, from a state that takes a first digit. -/
theorem steps_digits {p : Progress} {stack : List Frame} {x : Numeral} (hx : x.full = false)
    (hp : ∀ d < 10, p.step keeps d.digitChar =
      .ok ⟨.numeral (if d = 0 then .zero else .integer) { x with significand := d }, stack⟩)
    (n : Nat) (hn : n < 0x10000000000000000) : p.steps keeps (Text.digits n) =
      .ok ⟨.numeral (if n = 0 then .zero else .integer) { x with significand := n }, stack⟩ := by
  induction n using Nat.strongRecOn with
  | ind n ih =>
    unfold Text.digits at *
    by_cases h : n < 10
    · rw [Nat.toDigits_of_lt_base h, steps_cons, hp n h]
      rfl
    · have hd : n % 10 < 10 := Nat.mod_lt _ (by decide)
      have hc : (n % 10).digitChar.toNat - '0'.toNat = n % 10 := by
        rw [Nat.toNat_digitChar_of_lt_ten hd]
        exact Nat.add_sub_cancel_left 48 _
      have he : 10 * (n / 10) + n % 10 = n := Nat.div_add_mod n 10
      rw [Nat.toDigits_of_base_le (by decide) (by omega),
        steps_append (ih (n / 10) (by omega) (by omega)), if_neg (by omega), steps_cons]
      simp only [Progress.step, numeral, Nat.isDigit_digitChar, hd, decide_true, if_true, hc,
        Numeral.integerDigit, Numeral.admits, hx, he, hn, Bool.not_false, Bool.and_self,
        Except.bind, steps_nil, if_neg (show n ≠ 0 by omega)]

theorem start_digitChar (stack : List Frame) (d : Nat) (h : d < 10) :
    start keeps stack d.digitChar = .ok ⟨.numeral (if d = 0 then .zero else .integer)
      { Numeral.blank false with significand := d }, stack⟩ := by
  have : ∀ k : Fin 10, start keeps stack (Nat.digitChar k) =
      .ok ⟨.numeral (if k.val = 0 then .zero else .integer)
        { Numeral.blank false with significand := k }, stack⟩
    | 0 | 1 | 2 | 3 | 4 | 5 | 6 | 7 | 8 | 9 => rfl
  exact this ⟨d, h⟩

theorem sign_digitChar (stack : List Frame) (d : Nat) (h : d < 10) :
    step keeps ⟨.numeral .sign (.blank true), stack⟩ d.digitChar =
      .ok ⟨.numeral (if d = 0 then .zero else .integer)
        { Numeral.blank true with significand := d }, stack⟩ := by
  have : ∀ k : Fin 10, step keeps ⟨.numeral .sign (.blank true), stack⟩ (Nat.digitChar k) =
      .ok ⟨.numeral (if k.val = 0 then .zero else .integer)
        { Numeral.blank true with significand := k }, stack⟩
    | 0 | 1 | 2 | 3 | 4 | 5 | 6 | 7 | 8 | 9 => rfl
  exact this ⟨d, h⟩

theorem holds_numeral {v : Json} {stack : List Frame} {x : Numeral} (n : Nat)
    (h : x.value? = some v) :
    Holds v stack ⟨.numeral (if n = 0 then .zero else .integer) x, stack⟩ := by
  split
  · exact .zero x h
  · exact .integer x h

variable (keeps) in
/-- A state that takes the first character of a value for what is open in `stack`. -/
def Awaits (stack : List Frame) (p : Progress) : Prop :=
  ∀ c, isBlank c = false → c ≠ ']' → p.step keeps c = start keeps stack c

variable (keeps) in
/-- The characters lead from each state that awaits a value, and has room for it, to one that holds
it. -/
def Conveys (s : List Char) (v : Json) : Prop :=
  ∀ stack p, stack.length + depth v < depthLimit → Awaits keeps stack p →
    ∃ q, p.steps keeps s = .ok q ∧ Holds v stack q

theorem isBlank_digitChar {d : Nat} (h : d < 10) :
    isBlank d.digitChar = false ∧ d.digitChar ≠ ']' := by
  have : ∀ k : Fin 10, isBlank (Nat.digitChar k) = false ∧ Nat.digitChar k ≠ ']' := by decide
  exact this ⟨d, h⟩

theorem conveys_int {n : Int} (h : Exact (.int n)) :
    Conveys keeps (print (.int n)) (.int n) := by
  obtain ⟨h1, h2⟩ := h
  intro stack p _ hp
  by_cases hn : n < 0
  · rw [print, Text.signedDigits, if_pos hn, steps_cons, hp '-' rfl (by decide)]
    refine ⟨_, steps_digits rfl (sign_digitChar stack) _ (by omega), holds_numeral _ ?_⟩
    have h3 : 0 < n.natAbs ∧ n.natAbs ≤ 0x8000000000000000 := by omega
    simp only [Numeral.value?, Numeral.blank, Bool.not_true, Bool.and_false, Bool.false_eq_true,
      if_false, BEq.rfl, Bool.and_true, h3, and_self, decide_true, if_true]
    congr 2
    omega
  · rw [print, Text.signedDigits, if_neg hn]
    refine ⟨_, @steps_digits _ _ stack (.blank false) rfl (fun d hd => ?_) _ (by omega),
      holds_numeral _ ?_⟩
    · obtain ⟨hb, hc⟩ := isBlank_digitChar hd
      rw [hp _ hb hc, start_digitChar stack d hd]
    · simp only [Numeral.value?, Numeral.blank, Bool.not_false, BEq.rfl, Bool.and_true, if_true]
      congr 2
      omega

/-! ## Values -/

theorem conveys_str (s : String) : Conveys keeps (quoted s) (.str s) := by
  intro stack p _ hp
  refine ⟨_, ?_, .after⟩
  rw [quoted, List.cons_append, steps_cons, hp '"' rfl (by decide)]
  exact steps_quoted stack s false

theorem awaits_value (stack : List Frame) : Awaits keeps stack ⟨.value, stack⟩ := by
  intro c hb _
  simp [step, hb]

theorem awaits_item (stack : List Frame) : Awaits keeps stack ⟨.item, stack⟩ := by
  intro c hb hc
  simp [step, hb, hc]

theorem awaits_firstItem (stack : List Frame) :
    Awaits keeps (.arr [] :: stack) ⟨.firstItem, stack⟩ := by
  intro c hb hc
  simp [step, hb, hc]

theorem start_opened {stack : List Frame} {c : Char} {mode : Mode} {n : Nat}
    (h : stack.length + (n + 1) < depthLimit) (hc : start keeps stack c = opened keeps stack mode) :
    start keeps stack c = .ok ⟨mode, stack⟩ := by
  rw [hc, opened, if_pos]
  simp only [Bool.or_eq_true, decide_eq_true_eq]
  omega

/-- The name of a member, from a state that takes its first mark. -/
theorem steps_name {p : Progress} {stack : List Frame} {done : List (String × Json)}
    {old : Option String}
    (hp : p.step keeps '"' = .ok ⟨.string ⟨true, []⟩, .obj done old :: stack⟩) (name : String)
    (rest : List Char) : p.steps keeps (quoted name ++ ':' :: rest) =
      steps keeps ⟨.value, .obj done (some name) :: stack⟩ rest := by
  rw [quoted, List.cons_append, List.cons_append, steps_cons, hp, Except.bind,
    steps_append (steps_quoted _ name true)]
  rfl

mutual

theorem conveys_print : ∀ v : Json, Exact v → Conveys keeps (print v) v
  | .null, _ => by
    intro stack p _ hp
    rw [print, steps_cons, hp 'n' rfl (by decide)]
    exact ⟨_, rfl, .after⟩
  | .bool true, _ => by
    intro stack p _ hp
    rw [print, steps_cons, hp 't' rfl (by decide)]
    exact ⟨_, rfl, .after⟩
  | .bool false, _ => by
    intro stack p _ hp
    rw [print, steps_cons, hp 'f' rfl (by decide)]
    exact ⟨_, rfl, .after⟩
  | .int _, h => conveys_int h
  | .real _, h => h.elim
  | .str s, _ => by
    rw [print]
    exact conveys_str s
  | .arr [], _ => by
    intro stack p hd hp
    rw [print, steps_cons, hp '[' rfl (by decide), start_opened hd rfl]
    exact ⟨_, rfl, .after⟩
  | .arr (v :: vs), h => by
    intro stack p hd hp
    have hl : stack.length + (max (depth v) (depthItems vs) + 1) < depthLimit := hd
    obtain ⟨q, hq, hh⟩ := conveys_print v h.1 (.arr [] :: stack) _
      (by rw [List.length_cons]; omega) (awaits_firstItem stack)
    have := conveys_items vs h.2 v [] stack q (by omega) hh
    refine ⟨_, ?_, .after⟩
    rw [print, List.cons_append, steps_cons, hp '[' rfl (by decide), start_opened hd rfl]
    exact (steps_append hq).trans this
  | .obj [], _ => by
    intro stack p hd hp
    rw [print, steps_cons, hp '\x7b' rfl (by decide), start_opened hd rfl]
    exact ⟨_, rfl, .after⟩
  | .obj ((name, v) :: ms), h => by
    intro stack p hd hp
    have hl : stack.length + (max (depth v) (depthMembers ms) + 1) < depthLimit := hd
    obtain ⟨q, hq, hh⟩ := conveys_print v h.1 (.obj [] (some name) :: stack) _
      (by rw [List.length_cons]; omega) (awaits_value _)
    have := conveys_members ms h.2 name v [] stack q (by omega) hh
    refine ⟨_, ?_, .after⟩
    rw [print, List.cons_append, List.cons_append, List.append_assoc, List.cons_append, steps_cons,
      hp '\x7b' rfl (by decide), start_opened hd rfl]
    exact (steps_name rfl name _).trans ((steps_append hq).trans this)

theorem conveys_items : ∀ vs : List Json, ExactItems vs → ∀ v done stack q,
    stack.length + (depthItems vs + 1) < depthLimit → Holds v (.arr done :: stack) q →
      q.steps keeps (printItems vs) = .ok ⟨.after (.arr (done.reverse ++ v :: vs)), stack⟩
  | [], _, v, done, stack, q, _, hq => by
    rw [printItems, steps_cons, hq.step (.inr (.inl rfl))]
    simp [follow, isBlank, Except.bind]
  | w :: ws, h, v, done, stack, q, hd, hq => by
    have hl : stack.length + (max (depth w) (depthItems ws) + 1) < depthLimit := hd
    obtain ⟨r, hr, hh⟩ := conveys_print w h.1 (.arr (v :: done) :: stack) _
      (by rw [List.length_cons]; omega) (awaits_item _)
    have := conveys_items ws h.2 w (v :: done) stack r (by omega) hh
    rw [printItems, List.cons_append, steps_cons, hq.step (.inl rfl)]
    refine ((steps_append hr).trans this).trans ?_
    simp

theorem conveys_members : ∀ ms : List (String × Json), ExactMembers ms → ∀ name v done stack q,
    stack.length + (depthMembers ms + 1) < depthLimit →
      Holds v (.obj done (some name) :: stack) q →
      q.steps keeps (printMembers ms) =
        .ok ⟨.after (.obj (done.reverse ++ (name, v) :: ms)), stack⟩
  | [], _, name, v, done, stack, q, _, hq => by
    rw [printMembers, steps_cons, hq.step (.inr (.inr rfl))]
    simp [follow, isBlank, Except.bind]
  | (n, w) :: ms, h, name, v, done, stack, q, hd, hq => by
    have hl : stack.length + (max (depth w) (depthMembers ms) + 1) < depthLimit := hd
    obtain ⟨r, hr, hh⟩ := conveys_print w h.1 (.obj ((name, v) :: done) (some n) :: stack) _
      (by rw [List.length_cons]; omega) (awaits_value _)
    have := conveys_members ms h.2 n w ((name, v) :: done) stack r (by omega) hh
    rw [printMembers, List.cons_append, List.cons_append, List.append_assoc, List.cons_append,
      steps_cons, hq.step (.inl rfl)]
    refine ((steps_name rfl n _).trans ((steps_append hr).trans this)).trans ?_
    simp

end

theorem feed_print {v : Json} (h : Exact v) (hd : depth v < depthLimit) (place : Place) :
    initial.feed keeps place (v.print.map some) = .ok v := by
  obtain ⟨q, hq, hh⟩ := conveys_print v h [] initial (by simpa using hd) (awaits_value [])
  exact feed_of_steps hh.finish hq

end Progress

/-- Reading takes the text of an exact value back to it. -/
theorem read_text {v : Json} (h : Exact v) (hd : depth v < Progress.depthLimit) :
    read v.text = .ok v := by
  rw [read, text, String.toList_ofList]
  exact Progress.feed_print h hd _

/-- So does reading with some members in view, of which nothing that was printed is lost. -/
theorem readKept_text {v : Json} (h : Exact v) (hd : depth v < Progress.depthLimit)
    (keeps : String → Bool) : readKept keeps (Encoding.utf8 v.text) = .ok v := by
  rw [readKept, Encoding.characters_utf8, text, String.toList_ofList]
  exact Progress.feed_print h hd _

end TokenAuthority.Json
