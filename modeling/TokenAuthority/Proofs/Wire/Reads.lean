import Mathlib.Tactic.SplitIfs
import TokenAuthority.Json.Fields
import TokenAuthority.Json.RoundTrip

/-!
# Reading members

A record is read field by field. Fields that are read one after the other are read together
(`Reads.map`, `Reads.seq`), and a field is read if there is one member of its name and the value of
that member is read (`reads_field`). What was read from an object tells in turn what stands in it
(`reads_map_iff`, `reads_seq_iff`, `reads_required_iff`). The values that records are written as are
taken back from their texts (`Within.read_text`): their numbers are exact, and no more arrays and
objects are open within each other than records have (`Within`).
-/

namespace TokenAuthority.Json

/-- Some fields of a record are read, and leave what they were read from. -/
def Reads {α : Type} (x : Fields α) (s : Source) (a : α) : Prop := x s = (.value a, s)

section Reads

variable {α β : Type} {s : Source}

theorem Reads.map {x : Fields α} {a : α} (h : Reads x s a) (f : α → β) :
    Reads (f <$> x) s (f a) := by
  show ((Found.value f).seq (x s).1, (x s).2) = _
  rw [show x s = _ from h]
  rfl

theorem Reads.seq {f : Fields (α → β)} {x : Fields α} {g : α → β} {a : α} (hf : Reads f s g)
    (hx : Reads x s a) : Reads (f <*> x) s (g a) := by
  show ((f s).1.seq (x (f s).2).1, (x (f s).2).2) = _
  rw [show f s = _ from hf, show x s = _ from hx]
  rfl

theorem reads_field {absent ended : Found α} {name : String} {item : Reading α}
    {ms : List (String × Json)} {v : Json} {a : α} (hv : members name ms = [v])
    (ha : item v = .ok a) : Reads (field absent ended name item) (.members ms) a := by
  simp [Reads, field, hv, ha, Found.ofResult]

theorem reads_optional_none {name : String} {item : Reading α} {ms : List (String × Json)}
    (hv : members name ms = []) : Reads (optional name item) (.members ms) none := by
  simp [Reads, optional, field, hv]

/-- A text that may be missing. -/
theorem reads_optional_text {name : String} {ms : List (String × Json)} {s : Option String}
    (hv : members name ms = (s.map .str).toList) :
    Reads (optional name readText) (.members ms) s := by
  rcases s with _ | s
  · exact reads_optional_none hv
  · exact reads_field hv rfl

theorem readObject_of_reads {x : Fields α} {ms : List (String × Json)} {a : α}
    (h : Reads x (.members ms) a) : readObject x (.obj ms) = .ok a :=
  congrArg (fun found => found.1.result) h

theorem readRecord_of_reads {x : Fields α} {ms : List (String × Json)} {a : α}
    (h : Reads x (.members ms) a) : readRecord x (.obj ms) = .ok a :=
  readObject_of_reads h

theorem members_cons (name name' : String) (v : Json) (ms : List (String × Json)) :
    members name ((name', v) :: ms) = if name' = name then v :: members name ms
      else members name ms := by
  by_cases h : name' = name <;> simp [members, h]

theorem members_append (name : String) (ms ms' : List (String × Json)) :
    members name (ms ++ ms') = members name ms ++ members name ms' := by
  simp [members]

theorem members_eq_nil {name : String} {ms : List (String × Json)} (h : ∀ m ∈ ms, m.1 ≠ name) :
    members name ms = [] := by
  simpa [members] using fun n v hm => h (n, v) hm

theorem members_present (name name' : String) (v : Option Json) :
    members name (present name' v) = if name' = name then v.toList else [] := by
  rcases v with _ | v
  · exact (ite_self _).symm
  · exact members_cons name name' v []

/-- Reading fields from the members of an object leaves all members. -/
class Stays (x : Fields α) : Prop where
  snd : ∀ ms, (x (.members ms)).2 = .members ms

section Inversion

theorem stays_field (absent ended : Found α) (name : String) (item : Reading α) :
    Stays (field absent ended name item) where
  snd ms := by
    unfold field
    dsimp only
    split <;> rfl

instance (name : String) (item : Reading α) : Stays (required name item) := stays_field ..

instance (name : String) (item : Reading α) : Stays (optional name item) := stays_field ..

instance (a : α) (name : String) (item : Reading α) : Stays (defaulted a name item) :=
  stays_field ..

instance (x : Fields α) [h : Stays x] (f : α → β) : Stays (f <$> x) := ⟨fun ms => h.snd ms⟩

instance (f : Fields (α → β)) (x : Fields α) [hf : Stays f] [hx : Stays x] : Stays (f <*> x) where
  snd ms := by
    show (x (f (.members ms)).2).2 = _
    rw [hf.snd, hx.snd]

variable {name : String} {item : Reading α} {ms : List (String × Json)} {a : α}

theorem reads_map_iff {x : Fields α} {f : α → β} {b : β} :
    Reads (f <$> x) s b ↔ ∃ a, Reads x s a ∧ f a = b := by
  constructor
  · intro h
    have hfst : (Found.value f).seq (x s).1 = .value b := congrArg Prod.fst h
    have hsnd : (x s).2 = s := congrArg Prod.snd h
    rcases hx : (x s).1 with a | e | n <;> rw [hx] at hfst <;> cases hfst
    exact ⟨a, Prod.ext hx hsnd, rfl⟩
  · rintro ⟨a, ha, rfl⟩
    exact ha.map f

theorem reads_seq_iff {f : Fields (α → β)} {x : Fields α} [hf : Stays f] {b : β} :
    Reads (f <*> x) (.members ms) b ↔
      ∃ g a, Reads f (.members ms) g ∧ Reads x (.members ms) a ∧ g a = b := by
  constructor
  · intro h
    have hfst : (f (.members ms)).1.seq (x (f (.members ms)).2).1 = .value b := congrArg Prod.fst h
    have hsnd : (x (f (.members ms)).2).2 = .members ms := congrArg Prod.snd h
    rw [hf.snd] at hfst hsnd
    rcases hg : (f (.members ms)).1 with g | e | n <;>
      rcases hx : (x (.members ms)).1 with a | e' | n' <;> rw [hg, hx] at hfst <;> cases hfst
    exact ⟨g, a, Prod.ext hg (hf.snd ms), Prod.ext hx hsnd, rfl⟩
  · rintro ⟨g, a, hg, ha, rfl⟩
    exact hg.seq ha

theorem reads_field_cases {absent ended : Found α}
    (h : Reads (field absent ended name item) (.members ms) a) :
    (members name ms = [] ∧ absent = .value a) ∨ ∃ v, members name ms = [v] ∧ item v = .ok a := by
  have hfst : (field absent ended name item (.members ms)).1 = .value a := congrArg Prod.fst h
  unfold field at hfst
  dsimp only at hfst
  split at hfst
  · exact .inl ⟨‹_›, hfst⟩
  · rename_i v hv
    refine .inr ⟨v, hv, ?_⟩
    rcases hi : item v with e | b <;> rw [hi] at hfst <;> cases hfst
    rfl
  · cases hfst

theorem reads_required_iff : Reads (required name item) (.members ms) a ↔
    ∃ v, members name ms = [v] ∧ item v = .ok a := by
  constructor
  · intro h
    obtain ⟨-, h⟩ | h := reads_field_cases h
    · cases h
    · exact h
  · rintro ⟨v, hv, ha⟩
    exact reads_field hv ha

theorem reads_of_readObject {x : Fields α} [h : Stays x] (ha : readObject x (.obj ms) = .ok a) :
    Reads x (.members ms) a := by
  refine Prod.ext ?_ (h.snd ms)
  have hresult : (x (.members ms)).1.result = .ok a := ha
  rcases hx : (x (.members ms)).1 with b | e | n <;> rw [hx] at hresult <;> cases hresult
  rfl

end Inversion

end Reads

/-- A list is read back if each of its items is. -/
theorem readList_map {α : Type} {item : Reading α} {f : α → Json} (h : ∀ a, item (f a) = .ok a)
    (l : List α) : readList item (.arr (l.map f)) = .ok l := by
  show (l.map f).mapM item = .ok l
  induction l with
  | nil => rfl
  | cons a l ih =>
    rw [List.map_cons, List.mapM_cons, h a, ih]
    rfl

theorem readList_texts (l : List String) : readList readText (.arr (l.map .str)) = .ok l :=
  readList_map (f := Json.str) (fun _ => rfl) l

theorem eq_str_of_readText {v : Json} {s : String} (h : readText v = .ok s) : v = .str s := by
  unfold readText at h
  split at h <;> cases h
  rfl

theorem eq_texts_of_readList {v : Json} {l : List String} (h : readList readText v = .ok l) :
    v = .arr (l.map .str) := by
  unfold readList at h
  split at h
  · rename_i items
    congr
    induction items generalizing l with
    | nil =>
      cases h
      rfl
    | cons item items ih =>
      rw [List.mapM_cons] at h
      rcases hs : readText item with e | s <;> rw [hs] at h
      · cases h
      rcases hl : items.mapM readText with e | l <;> rw [hl] at h <;> cases h
      rw [eq_str_of_readText hs, ih hl, List.map_cons]
  · cases h

theorem eq_int_of_readInt64 {v : Json} {n : Int64} (h : readInt64 v = .ok n) :
    v = .int n.toInt := by
  unfold readInt64 at h
  split at h
  · split_ifs at h with hm
    · cases h
      rw [Int64.toInt_ofInt_of_le hm.1 hm.2]
  · cases h

theorem readInt64_toInt (n : Int64) : readInt64 (.int n.toInt) = .ok n := by
  have hlo := n.le_toInt
  have hhi := n.toInt_lt
  simp only [readInt64]
  rw [if_pos (by omega), Int64.ofInt_toInt]

theorem readWord_toNat (n : UInt64) : readWord (.int n.toNat) = .ok n := by
  have hn := n.toNat_lt
  rw [readWord, if_pos (by omega), Int.toNat_natCast, UInt64.ofNat_toNat]

theorem readNullable_text? (s : Option String) : readNullable readText (text? s) = .ok s := by
  cases s <;> rfl

/-- A value that is taken back from its text, if no more arrays and objects may be open within each
other than `n`. -/
structure Within (n : Nat) (v : Json) : Prop where
  exact : Exact v
  depth_le : depth v ≤ n

/-- Members that have such values. -/
def WithinMembers (n : Nat) (ms : List (String × Json)) : Prop := ∀ m ∈ ms, Within n m.2

namespace Within

variable {n : Nat}

section ReadBack

variable {v : Json} (h : Within n v) (hn : n < Progress.depthLimit)

include h hn

theorem read_text : read v.text = .ok v :=
  Json.read_text h.exact (Nat.lt_of_le_of_lt h.depth_le hn)

theorem readKept_text (keeps : String → Bool) : readKept keeps (Encoding.utf8 v.text) = .ok v :=
  Json.readKept_text h.exact (Nat.lt_of_le_of_lt h.depth_le hn) keeps

end ReadBack

theorem arr : ∀ {items : List Json}, (∀ v ∈ items, Within n v) → Within (n + 1) (.arr items)
  | [], _ => ⟨trivial, Nat.le_add_left 1 n⟩
  | _ :: _, h =>
    have ⟨hv, hrest⟩ := List.forall_mem_cons.1 h
    ⟨⟨hv.exact, (arr hrest).exact⟩,
      Nat.succ_le_succ (Nat.max_le.2 ⟨hv.depth_le, Nat.le_of_succ_le_succ (arr hrest).depth_le⟩)⟩

theorem obj : ∀ {ms : List (String × Json)}, WithinMembers n ms → Within (n + 1) (.obj ms)
  | [], _ => ⟨trivial, Nat.le_add_left 1 n⟩
  | _ :: _, h =>
    have ⟨hv, hrest⟩ := List.forall_mem_cons.1 h
    ⟨⟨hv.exact, (obj hrest).exact⟩,
      Nat.succ_le_succ (Nat.max_le.2 ⟨hv.depth_le, Nat.le_of_succ_le_succ (obj hrest).depth_le⟩)⟩

@[simp]
theorem str (s : String) : Within n (.str s) := ⟨trivial, Nat.zero_le n⟩

@[simp]
theorem bool (b : Bool) : Within n (.bool b) := ⟨trivial, Nat.zero_le n⟩

@[simp]
theorem int64 (i : Int64) : Within n (.int i.toInt) := by
  have hlo := i.le_toInt
  have hhi := i.toInt_lt
  exact ⟨by simp only [Exact]; omega, Nat.zero_le n⟩

@[simp]
theorem word (i : UInt64) : Within n (.int i.toNat) := by
  have hhi := i.toNat_lt
  exact ⟨by simp only [Exact]; omega, Nat.zero_le n⟩

@[simp]
theorem text? (s : Option String) : Within n (Json.text? s) := by
  cases s with
  | none => exact ⟨trivial, Nat.zero_le n⟩
  | some s => exact str s

@[simp]
theorem texts (l : List String) : Within (n + 1) (.arr (l.map .str)) :=
  arr fun _ hv => by
    obtain ⟨s, -, rfl⟩ := List.mem_map.1 hv
    exact str s

end Within

namespace WithinMembers

variable {n : Nat} {ms ms' : List (String × Json)}

@[simp]
theorem nil : WithinMembers n [] := nofun

@[simp]
theorem cons_iff {m : String × Json} :
    WithinMembers n (m :: ms) ↔ Within n m.2 ∧ WithinMembers n ms := List.forall_mem_cons

@[simp]
theorem append_iff : WithinMembers n (ms ++ ms') ↔ WithinMembers n ms ∧ WithinMembers n ms' :=
  List.forall_mem_append

@[simp]
theorem present (name : String) (s : Option String) :
    WithinMembers n (Json.present name (s.map .str)) := by
  cases s with
  | none => exact nil
  | some s => exact cons_iff.2 ⟨.str s, nil⟩

end WithinMembers

end TokenAuthority.Json
