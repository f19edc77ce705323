/-
# Type descriptors and their JSON data

A descriptor is written as a record of its kind, which comes first, and of its inner part.  Read in
that order, the inner part is read for what the kind asks of it, so every descriptor is read back
as itself (`TypeSpec.ofWritten?_written_eq_ite`), as deep as its records may nest.

How deep they may nest is a matter of the reader.  The text itself stands for one descriptor only,
however deep it nests (`TypeSpec.toJson_text_injective`), since one can always allow for more.
-/
import MethodGuard.Proofs.Json.RoundTrip
import MethodGuard.TypeSpec.Json

namespace MethodGuard

namespace TypeSpec

open Json (written writtenItems)

/-! ## 1. Records of descriptors -/

theorem exact_plainJson (tag : Tag) : (plainJson tag).Exact := by
  refine .object fun m hm => ?_
  rw [List.mem_singleton.mp hm]
  exact .string tag.name

theorem exact_innerJson (tag : Tag) {inner : Json} (h : inner.Exact) :
    (innerJson tag inner).Exact := by
  refine .object fun m hm => ?_
  simp only [List.mem_cons, List.not_mem_nil, or_false] at hm
  rcases hm with rfl | rfl
  · exact .string tag.name
  · exact h

mutual

/-- The data of a descriptor is given back by its text. -/
theorem exact_toJson : (t : TypeSpec) → t.toJson.Exact
  | .any => exact_plainJson .any
  | .none => exact_plainJson .none
  | .boolean => exact_plainJson .boolean
  | .integer => exact_plainJson .integer
  | .float => exact_plainJson .float
  | .string => exact_plainJson .string
  | .list element => exact_innerJson .list (exact_toJson element)
  | .map element => exact_innerJson .map (exact_toJson element)
  | .optional inner => exact_innerJson .optional (exact_toJson inner)
  | .union members => exact_innerJson .union (.array (exact_membersToJson members))

theorem exact_membersToJson : (members : List TypeSpec) → ∀ j ∈ membersToJson members, j.Exact
  | [], _, hj => nomatch hj
  | t :: rest, j, hj => by
    rcases List.mem_cons.mp hj with rfl | hj
    · exact exact_toJson t
    · exact exact_membersToJson rest j hj

end

/-! ## 2. Reading them -/

theorem Tag.ofName?_name (tag : Tag) : ofName? tag.name = some tag := by
  cases tag <;> rfl

theorem ofWritten?_plainJson (tag : Tag) (depth : Nat) :
    ofWritten? (depth + 1) false (plainJson tag).written = ofTag? tag := by
  have hmembers := Record.members?_written ["kind", "inner"] [("kind", .string tag.name)] []
    (by simp) (by simp)
  rw [plainJson, written, ofWritten?, hmembers]
  simp only [List.nil_append, List.map_cons, List.map_nil, if_true]
  rw [Record.name?_written, Tag.ofName?_name, Option.bind_some]

theorem ofWritten?_innerJson (tag : Tag) (inner : Json) (depth : Nat) :
    ofWritten? (depth + 1) false (innerJson tag inner).written =
      ofInner? (fun w => ofWritten? depth false w) (fun w => membersOfWritten? depth false w) tag
        inner.written := by
  have hmembers := Record.members?_written ["kind", "inner"]
    [("kind", .string tag.name), ("inner", inner)] [] (by simp) (by simp)
  rw [innerJson, written, ofWritten?, hmembers]
  simp only [List.nil_append, List.map_cons, List.map_nil, if_true]
  rw [Record.name?_written, Tag.ofName?_name, Option.bind_some]

/-- An inner part nests one less deep than its record. -/
theorem depth_innerJson (tag : Tag) (inner : Json) :
    (innerJson tag inner).depth = inner.depth + 1 := by
  simp [innerJson, Json.depth, Json.membersDepth]

theorem written_toJson_ne_null (t : TypeSpec) : t.toJson.written ≠ .null := by
  cases t <;> nofun

/-- A record does not fit where nothing may nest. -/
theorem not_depth_toJson_le_zero (t : TypeSpec) : ¬ t.toJson.depth ≤ 0 := by
  cases t <;> exact Nat.not_succ_le_zero _

theorem ofWritten?_zero (buffered : Bool) (w : Written) :
    ofWritten? 0 buffered w = Option.none := by
  rw [ofWritten?] <;> nofun

mutual

/-- **A descriptor is read back from its record**, as deep as it may nest, and nothing is if it
nests deeper. -/
theorem ofWritten?_written_eq_ite : (t : TypeSpec) → (depth : Nat) →
    ofWritten? depth false t.toJson.written = if t.toJson.depth ≤ depth then some t else Option.none
  | t, 0 => by rw [ofWritten?_zero, if_neg t.not_depth_toJson_le_zero]
  | .any, depth + 1 => ofWritten?_plainJson .any depth
  | .none, depth + 1 => ofWritten?_plainJson .none depth
  | .boolean, depth + 1 => ofWritten?_plainJson .boolean depth
  | .integer, depth + 1 => ofWritten?_plainJson .integer depth
  | .float, depth + 1 => ofWritten?_plainJson .float depth
  | .string, depth + 1 => ofWritten?_plainJson .string depth
  | .list element, depth + 1 => by
    rw [toJson, ofWritten?_innerJson, ofInner?, ofWritten?_written_eq_ite element depth,
      depth_innerJson]
    simp only [Option.map_if, Nat.add_le_add_iff_right]
  | .map element, depth + 1 => by
    rw [toJson, ofWritten?_innerJson, ofInner?, ofWritten?_written_eq_ite element depth,
      depth_innerJson]
    simp only [Option.map_if, Nat.add_le_add_iff_right]
  | .optional inner, depth + 1 => by
    rw [toJson, ofWritten?_innerJson, ofInner?, ofWritten?_written_eq_ite inner depth,
      depth_innerJson]
    simp only [Option.map_if, Nat.add_le_add_iff_right]
  | .union members, depth + 1 => by
    rw [toJson, ofWritten?_innerJson, ofInner?, membersOfWritten?_written members depth,
      depth_innerJson]
    simp only [Option.map_if, Nat.add_le_add_iff_right]

/-- The members of a union are read back from their array. -/
theorem membersOfWritten?_written : (members : List TypeSpec) → (depth : Nat) →
    membersOfWritten? depth false (Json.array (membersToJson members)).written =
      if (Json.array (membersToJson members)).depth ≤ depth then some members else Option.none
  | _, 0 => by
    rw [Json.depth, if_neg (Nat.not_succ_le_zero _)]
    rfl
  | members, depth + 1 => by
    rw [written, membersOfWritten?, mapM_writtenItems members depth, Json.depth]
    simp only [Nat.add_le_add_iff_right]

theorem mapM_writtenItems : (members : List TypeSpec) → (depth : Nat) →
    ((writtenItems (membersToJson members)).mapM fun item => ofWritten? depth false item) =
      if Json.itemsDepth (membersToJson members) ≤ depth then some members else Option.none
  | [], depth => by
    rw [membersToJson, Json.itemsDepth, if_pos (Nat.zero_le depth)]
    rfl
  | t :: rest, depth => by
    rw [membersToJson, writtenItems, List.mapM_cons, ofWritten?_written_eq_ite t depth,
      mapM_writtenItems rest depth, Json.itemsDepth]
    simp only [Nat.max_le]
    by_cases hfirst : t.toJson.depth ≤ depth
    · by_cases hrest : Json.itemsDepth (membersToJson rest) ≤ depth <;> simp [hfirst, hrest]
    · simp [hfirst]

end

theorem ofWritten?_written (t : TypeSpec) {depth : Nat} (h : t.toJson.depth ≤ depth) :
    ofWritten? depth false t.toJson.written = some t := by
  rw [ofWritten?_written_eq_ite t depth, if_pos h]

/-! ## 3. Texts -/

/-- A text determines the tree of the descriptor that it was written for. -/
theorem written_eq_of_text_eq {s t : TypeSpec} (h : s.toJson.text = t.toJson.text) :
    s.toJson.written = t.toJson.written := by
  have hwrite : s.toJson.write = t.toJson.write := String.ofList_injective h
  have hread := Written.read?_write s.exact_toJson
  rw [hwrite, Written.read?_write t.exact_toJson] at hread
  exact (Option.some.inj hread).symm

/-- **Different descriptors have different texts.** -/
theorem toJson_text_injective {s t : TypeSpec} (h : s.toJson.text = t.toJson.text) : s = t := by
  have hs := s.ofWritten?_written (Nat.le_max_left s.toJson.depth t.toJson.depth)
  have ht := t.ofWritten?_written (Nat.le_max_right s.toJson.depth t.toJson.depth)
  rw [written_eq_of_text_eq h, ht] at hs
  exact (Option.some.inj hs).symm

/-- **A descriptor is identified by its text.**  The text is read as the descriptor it was written
for, unless it nests too deep, and then it is not read; it is the text of no other descriptor; and
what is read checks every value as the descriptor does. -/
theorem identified_by_text (t : TypeSpec) :
    (read? t.toJson.text =
        if t.toJson.depth ≤ Written.depthLimit then some t else Option.none) ∧
      (∀ s : TypeSpec, s.toJson.text = t.toJson.text → s = t) ∧
      ∀ u, read? t.toJson.text = some u →
        ∀ strategy v, u.check strategy v = t.check strategy v := by
  have hread : read? t.toJson.text =
      if t.toJson.depth ≤ Written.depthLimit then some t else Option.none := by
    rw [read?, Json.text, String.toList_ofList, Written.read?_write t.exact_toJson,
      Option.bind_some]
    exact t.ofWritten?_written_eq_ite _
  refine ⟨hread, fun s => toJson_text_injective, ?_⟩
  intro u hu strategy v
  rw [hread] at hu
  split at hu
  · rw [Option.some.inj hu]
  · cases hu

end TypeSpec

end MethodGuard
