/-
# Written data is read back

The text of `Exact` data has one reading: its tokens take the reader through the tree `Json.written`
(`Reader.run_tokens`, `Written.read?_write`), and that tree means the data, as long as its
containers nest no deeper than is allowed (`Json.meaning?_written`).  Records are read from such
trees member by member (`Record.members?_written`).
-/
import Mathlib.Data.List.Nodup
import MethodGuard.Json.Record
import MethodGuard.Proofs.Json.Scan

namespace MethodGuard

/-! ## 1. Trees -/

namespace Json

mutual

/-- The tree of the text of data without floats. -/
def written : Json → Written
  | .null => .null
  | .boolean b => .boolean b
  | .integer n => .number (literal n)
  | .float _ => .null
  | .string s => .string (pieces s)
  | .array items => .array (writtenItems items)
  | .object members => .object (writtenMembers members)

/-- The trees of an array's items. -/
def writtenItems : List Json → List Written
  | [] => []
  | item :: rest => item.written :: writtenItems rest

/-- The trees of an object's members. -/
def writtenMembers : List (String × Json) → List (List Piece × Written)
  | [] => []
  | (key, value) :: rest => (pieces key, value.written) :: writtenMembers rest

end

mutual

/-- How deep the containers of data nest. -/
def depth : Json → Nat
  | .array items => itemsDepth items + 1
  | .object members => membersDepth members + 1
  | _ => 0

/-- How deep the containers of some items nest. -/
def itemsDepth : List Json → Nat
  | [] => 0
  | item :: rest => max item.depth (itemsDepth rest)

/-- How deep the containers of some members nest. -/
def membersDepth : List (String × Json) → Nat
  | [] => 0
  | (_, value) :: rest => max value.depth (membersDepth rest)

end

end Json

/-! ## 2. The reader -/

namespace Reader

open Json (tokens itemTokens memberTokens written writtenItems writtenMembers)

/-- The first item of an array is read as any value is. -/
theorem run_itemOrEnd {j : Json} (h : j.Exact) (frames : List Frame) (rest : List Token) :
    run (.itemOrEnd frames) (j.tokens ++ rest) =
      run (.value (.array [] :: frames)) (j.tokens ++ rest) := by
  cases h with
  | null => rfl
  | boolean => rfl
  | integer => rfl
  | string => rfl
  | @array items => cases items <;> rfl
  | @object members => cases members <;> rfl

mutual

/-- **The tokens of a value take the reader past its tree**, wherever the value stands. -/
theorem run_tokens : (j : Json) → j.Exact → (frames : List Frame) → (rest : List Token) →
    run (.value frames) (j.tokens ++ rest) = run (.next j.written frames) rest
  | .null, _, _, _ => rfl
  | .boolean _, _, _, _ => rfl
  | .integer _, _, _, _ => rfl
  | .float _, h, _, _ => nomatch h
  | .string _, _, _, _ => rfl
  | .array [], _, _, _ => rfl
  | .array (item :: items), h, frames, rest => by
    cases h with
    | array h =>
      obtain ⟨hitem, hitems⟩ := List.forall_mem_cons.mp h
      calc run (.value frames) ((Json.array (item :: items)).tokens ++ rest)
          = run (.itemOrEnd frames) (item.tokens ++ (itemTokens items ++ rest)) := by
            rw [tokens, List.cons_append, List.append_assoc]
            rfl
        _ = run (.next item.written (.array [] :: frames)) (itemTokens items ++ rest) := by
            rw [run_itemOrEnd hitem, run_tokens item hitem]
        _ = run (.next (Json.array (item :: items)).written frames) rest := by
            rw [run_itemTokens items hitems]
            rfl
  | .object [], _, _, _ => rfl
  | .object ((key, value) :: members), h, frames, rest => by
    cases h with
    | object h =>
      obtain ⟨hvalue, hmembers⟩ := List.forall_mem_cons.mp h
      calc run (.value frames) ((Json.object ((key, value) :: members)).tokens ++ rest)
          = run (.value (.object [] (Json.pieces key) :: frames))
              (value.tokens ++ (memberTokens members ++ rest)) := by
            rw [tokens, List.cons_append, List.cons_append, List.cons_append, List.append_assoc]
            rfl
        _ = run (.next value.written (.object [] (Json.pieces key) :: frames))
              (memberTokens members ++ rest) := run_tokens value hvalue _ _
        _ = run (.next (Json.object ((key, value) :: members)).written frames) rest := by
            rw [run_memberTokens members hmembers]
            rfl

/-- The further items of an array are put behind those read so far. -/
theorem run_itemTokens : (items : List Json) → (∀ item ∈ items, item.Exact) → (w : Written) →
    (done : List Written) → (frames : List Frame) → (rest : List Token) →
    run (.next w (.array done :: frames)) (itemTokens items ++ rest) =
      run (.next (.array (done.reverse ++ w :: writtenItems items)) frames) rest
  | [], _, w, done, frames, rest => by
    rw [itemTokens, writtenItems, ← List.reverse_cons]
    rfl
  | item :: items, h, w, done, frames, rest => by
    obtain ⟨hitem, hitems⟩ := List.forall_mem_cons.mp h
    calc run (.next w (.array done :: frames)) (itemTokens (item :: items) ++ rest)
        = run (.value (.array (w :: done) :: frames)) (item.tokens ++ (itemTokens items ++ rest)) := by
          rw [itemTokens, List.cons_append, List.append_assoc]
          rfl
      _ = run (.next (.array (done.reverse ++ w :: writtenItems (item :: items))) frames) rest := by
          rw [run_tokens item hitem, run_itemTokens items hitems, List.reverse_cons,
            List.append_assoc]
          rfl

/-- The further members of an object are put behind those read so far. -/
theorem run_memberTokens : (members : List (String × Json)) → (∀ m ∈ members, m.2.Exact) →
    (key : List Piece) → (w : Written) → (done : List (List Piece × Written)) →
    (frames : List Frame) → (rest : List Token) →
    run (.next w (.object done key :: frames)) (memberTokens members ++ rest) =
      run (.next (.object (done.reverse ++ (key, w) :: writtenMembers members)) frames) rest
  | [], _, key, w, done, frames, rest => by
    rw [memberTokens, writtenMembers, ← List.reverse_cons]
    rfl
  | (name, value) :: members, h, key, w, done, frames, rest => by
    obtain ⟨hvalue, hmembers⟩ := List.forall_mem_cons.mp h
    calc run (.next w (.object done key :: frames)) (memberTokens ((name, value) :: members) ++ rest)
        = run (.value (.object ((key, w) :: done) (Json.pieces name) :: frames))
            (value.tokens ++ (memberTokens members ++ rest)) := by
          rw [memberTokens, List.cons_append, List.cons_append, List.cons_append,
            List.append_assoc]
          rfl
      _ = run (.next (.object (done.reverse ++ (key, w) ::
            writtenMembers ((name, value) :: members))) frames) rest := by
          rw [run_tokens value hvalue, run_memberTokens members hmembers, List.reverse_cons,
            List.append_assoc]
          rfl

end

end Reader

/-- **The text of data is read as the tree of the data.** -/
theorem Written.read?_write {j : Json} (h : j.Exact) : read? j.write = some j.written := by
  have htokens : Token.scan j.write = some j.tokens := by
    have hscan := Json.scan_write j h [] trivial
    rw [List.append_nil, Token.scan, Option.map_some, List.append_nil] at hscan
    exact hscan
  have hrun := Reader.run_tokens j h [] []
  rw [List.append_nil] at hrun
  rw [read?, htokens]
  simp only [hrun, Reader.run, Option.bind_some, Reader.finish]

/-! ## 3. Meanings -/

/-- What a member of an object means. -/
def Written.member? (depth : Nat) (member : List Piece × Written) : Option (String × Json) :=
  match text? member.1, member.2.meaning? depth with
  | some key, some value => some (key, value)
  | _, _ => none

theorem Written.meaning?_object (depth : Nat) (members : List (List Piece × Written)) :
    (Written.object members).meaning? (depth + 1) =
      (members.mapM (member? depth)).map .object := rfl

namespace Json

mutual

/-- **The tree of data means the data**, as deep as it may nest, and nothing if it nests deeper. -/
theorem meaning?_written_eq_ite : (j : Json) → j.Exact → (depth : Nat) →
    j.written.meaning? depth = if j.depth ≤ depth then some j else none
  | .null, _, depth => by cases depth <;> rfl
  | .boolean _, _, depth => by cases depth <;> rfl
  | .integer n, h, depth => by
    cases h with
    | integer hmin hmax =>
      have hmeaning := NumberLiteral.meaning?_literal hmin hmax
      cases depth <;> exact hmeaning
  | .float _, h, _ => nomatch h
  | .string s, _, depth => by
    have hmeaning : (Written.text? (pieces s)).map Json.string = some (.string s) := by
      rw [Written.text?_pieces, Option.map_some]
    cases depth <;> exact hmeaning
  | .array _, _, 0 => rfl
  | .array items, h, depth + 1 => by
    cases h with
    | array h =>
      rw [written, Written.meaning?, meaning?_writtenItems items h depth, Json.depth]
      simp only [Option.map_if, Nat.add_le_add_iff_right]
  | .object _, _, 0 => rfl
  | .object members, h, depth + 1 => by
    cases h with
    | object h =>
      rw [written, Written.meaning?_object, meaning?_writtenMembers members h depth, Json.depth]
      simp only [Option.map_if, Nat.add_le_add_iff_right]

theorem meaning?_writtenItems : (items : List Json) → (∀ item ∈ items, item.Exact) →
    (depth : Nat) → (writtenItems items).mapM (Written.meaning? depth) =
      if itemsDepth items ≤ depth then some items else none
  | [], _, depth => by
    rw [itemsDepth, if_pos (Nat.zero_le depth)]
    rfl
  | item :: items, h, depth => by
    obtain ⟨hitem, hitems⟩ := List.forall_mem_cons.mp h
    rw [writtenItems, List.mapM_cons, meaning?_written_eq_ite item hitem depth,
      meaning?_writtenItems items hitems depth, itemsDepth]
    simp only [Nat.max_le]
    by_cases hfirst : item.depth ≤ depth
    · by_cases hrest : itemsDepth items ≤ depth <;> simp [hfirst, hrest]
    · simp [hfirst]

theorem meaning?_writtenMembers : (members : List (String × Json)) → (∀ m ∈ members, m.2.Exact) →
    (depth : Nat) → (writtenMembers members).mapM (Written.member? depth) =
      if membersDepth members ≤ depth then some members else none
  | [], _, depth => by
    rw [membersDepth, if_pos (Nat.zero_le depth)]
    rfl
  | (key, value) :: members, h, depth => by
    obtain ⟨hvalue, hmembers⟩ := List.forall_mem_cons.mp h
    rw [writtenMembers, List.mapM_cons, Written.member?, Written.text?_pieces,
      meaning?_written_eq_ite value hvalue depth, meaning?_writtenMembers members hmembers depth,
      membersDepth]
    simp only [Nat.max_le]
    by_cases hfirst : value.depth ≤ depth
    · by_cases hrest : membersDepth members ≤ depth <;> simp [hfirst, hrest]
    · simp [hfirst]

end

theorem meaning?_written {j : Json} (h : j.Exact) {depth : Nat} (hdepth : j.depth ≤ depth) :
    j.written.meaning? depth = some j := by
  rw [meaning?_written_eq_ite j h depth, if_pos hdepth]

/-- **Data is read back from its text**, unless it nests too deep. -/
theorem read?_text {j : Json} (h : j.Exact) :
    read? j.text = if j.depth ≤ Written.depthLimit then some j else none := by
  rw [read?, text, String.toList_ofList, Written.read?_write h, Option.bind_some]
  exact meaning?_written_eq_ite j h _

end Json

/-! ## 4. Records -/

namespace Record

open Json (writtenMembers)

/-- **A record of known members is read member by member.** -/
theorem members?_written (known : List String) (members : List (String × Json))
    (found : List (String × Written)) (hknown : ∀ m ∈ members, m.1 ∈ known)
    (hnodup : (found.map Prod.fst ++ members.map Prod.fst).Nodup) :
    members? known found (writtenMembers members) =
      some (found ++ members.map fun m => (m.1, m.2.written)) := by
  induction members generalizing found with
  | nil => rw [writtenMembers, members?, List.map_nil, List.append_nil]
  | cons m members ih =>
    obtain ⟨key, value⟩ := m
    have hkey : known.contains key = true := by simpa using hknown _ List.mem_cons_self
    have hnew : found.lookup key = none := by
      rw [List.lookup_eq_none_iff]
      intro entry hentry
      have hne : key ≠ entry.1 := by
        intro heq
        exact List.disjoint_of_nodup_append hnodup (List.mem_map_of_mem hentry) (by simp [heq])
      simpa using hne
    have hrest := ih (found ++ [(key, value.written)])
      (fun m hm => hknown m (List.mem_cons_of_mem _ hm)) (by simpa using hnodup)
    rw [writtenMembers, members?, Written.text?_pieces]
    simp only [hkey, hnew, Option.isSome_none, if_true, Bool.false_eq_true, if_false, hrest]
    simp

/-- A name is read as what it names. -/
theorem name?_written {α : Type u} (named : String → Option α) (name : String) (depth : Nat) :
    name? named depth false (Json.string name).written = named name := by
  rw [Json.written, name?, Written.text?_pieces, Option.bind_some]

/-- What is there and is not `null` is read. -/
theorem optional?_of_ne_null {α : Type u} (read : Written → Option α) {w : Written}
    (h : w ≠ .null) : optional? read (some w) = (read w).map some := by
  cases w with
  | null => exact absurd rfl h
  | _ => rfl

end Record

end MethodGuard
