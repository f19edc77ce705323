/-
# Two readings of one text

A text is turned into a value in two ways.  One reads the data first, with the members of every
object sorted, and makes a value of that; the other tries the kinds of value in turn and keeps the
order of the text.  `Value.readings_agree` says that both succeed on the same texts, with values
that the program holds to be equal, and that the values hold finite numbers only.

`Value.Reads` says what it is to read data, without saying in which order the entries of a map come;
the order is a parameter.  Values that read the same data are equal up to that order
(`Value.Reads.upToOrder`), and both ways read the data, each with its own order
(`Value.isReading_ofJson`, `Value.isReading_sorted`).
-/
import MethodGuard.Proofs.Json.Finite
import MethodGuard.Proofs.Value.ReadBack
import MethodGuard.Proofs.Value.UpToOrder

namespace MethodGuard

/-! ## 1. The last member of a key -/

namespace Json

variable {done members : List (String × Json)} {key : String} {j : Json}

/-- **The last member of a key.** -/
def LastMember (members : List (String × Json)) (key : String) (j : Json) : Prop :=
  ∃ before after, members = before ++ (key, j) :: after ∧ key ∉ after.map Prod.fst

/-- A key has a last member. -/
theorem exists_lastMember (h : key ∈ members.map Prod.fst) : ∃ j, LastMember members key j := by
  induction members with
  | nil => cases h
  | cons member rest ih =>
    by_cases hrest : key ∈ rest.map Prod.fst
    · obtain ⟨j, before, after, rfl, hafter⟩ := ih hrest
      exact ⟨j, member :: before, after, rfl, hafter⟩
    · obtain rfl : key = member.1 := (List.mem_cons.mp h).resolve_right hrest
      exact ⟨member.2, [], rest, rfl, hrest⟩

theorem LastMember.mem (h : LastMember members key j) : (key, j) ∈ members := by
  obtain ⟨before, after, rfl, -⟩ := h
  simp

theorem lookup_insertMember (key other : String) (value : Json) (members : List (String × Json)) :
    (insertMember key value members).lookup other =
      if other = key then some value else members.lookup other := by
  induction members with
  | nil => grind [insertMember]
  | cons member rest ih =>
    obtain ⟨k, v⟩ := member
    rw [insertMember]
    grind

theorem lookup_sortedMembers_of_not_mem (h : key ∉ members.map Prod.fst) :
    (sortedMembers done members).lookup key = done.lookup key := by
  induction members generalizing done with
  | nil => rw [sortedMembers]
  | cons member rest ih =>
    rw [List.map_cons, List.mem_cons, not_or] at h
    rw [sortedMembers, ih h.2, lookup_insertMember, if_neg h.1]

/-- **The last member of a key wins** where members are sorted. -/
theorem lookup_sortedMembers (h : LastMember members key j) :
    (sortedMembers done members).lookup key = some j.sorted := by
  obtain ⟨before, after, rfl, hafter⟩ := h
  induction before generalizing done with
  | nil =>
    rw [List.nil_append, sortedMembers, lookup_sortedMembers_of_not_mem hafter,
      lookup_insertMember, if_pos rfl]
  | cons member before ih =>
    rw [List.cons_append, sortedMembers]
    exact ih

theorem mem_keys_sortedMembers : key ∈ (sortedMembers done members).map Prod.fst ↔
    key ∈ done.map Prod.fst ∨ key ∈ members.map Prod.fst := by
  induction members generalizing done with
  | nil => simp [sortedMembers]
  | cons member rest ih =>
    rw [sortedMembers, ih, map_fst_insertMember, NameSet.mem_insertSorted, List.map_cons,
      List.mem_cons]
    grind

end Json

/-! ## 2. Values that read data -/

namespace Value

/-- **A value reads data**: numbers by what 64 bits hold, and of an object every key once, with its
last value, arranged in one way or another. -/
inductive Reads (Arranged : List String → List String → Prop) : Json → Value → Prop where
  | null : Reads Arranged .null .none
  | boolean (b : Bool) : Reads Arranged (.boolean b) (.boolean b)
  | integer (i : Int64) : Reads Arranged (.integer i.toInt) (.integer i)
  /-- The nearest float stands for an integer that is too large. -/
  | large {n : Int} : fits n = false → Reads Arranged (.integer n) (.float (Double.ofInt n))
  | float (d : Double) : Reads Arranged (.float d) (.float d)
  | string (s : String) : Reads Arranged (.string s) (.string s)
  | array {items : List Json} {values : List Value} : items.length = values.length →
      (∀ (i : Nat) (item : Json) (value : Value), items[i]? = some item → values[i]? = some value →
        Reads Arranged item value) →
      Reads Arranged (.array items) (.list values)
  | object {members : List (String × Json)} {entries : List (String × Value)} :
      (entries.map Prod.fst).Nodup →
      (∀ key, key ∈ entries.map Prod.fst ↔ key ∈ members.map Prod.fst) →
      Arranged (members.map Prod.fst) (entries.map Prod.fst) →
      (∀ (key : String) (j : Json) (value : Value), Json.LastMember members key j →
        (key, value) ∈ entries → Reads Arranged j value) →
      Reads Arranged (.object members) (.map entries)

/-- The order in which the keys come first. -/
def FirstOccurrence (keys arranged : List String) : Prop := arranged = keys.eraseDups

/-- Strictly ascending byte order. -/
def InByteOrder (_ arranged : List String) : Prop :=
  arranged.Pairwise fun a b => ByteOrder.utf8 a < ByteOrder.utf8 b

/-- **A value whose numbers are all finite.** -/
inductive Finite : Value → Prop where
  | none : Finite .none
  | boolean (b : Bool) : Finite (.boolean b)
  | integer (i : Int64) : Finite (.integer i)
  | float {d : Double} : d.isFinite = true → Finite (.float d)
  | string (s : String) : Finite (.string s)
  | list {items : List Value} : (∀ item ∈ items, Finite item) → Finite (.list items)
  | map {entries : List (String × Value)} : (∀ entry ∈ entries, Finite entry.2) →
      Finite (.map entries)

end Value

namespace Value.Reads

variable {Arranged Arranged' : List String → List String → Prop} {j : Json} {v w : Value}

/-- An entry has a member that it reads. -/
theorem exists_lastMember {members : List (String × Json)} {entries : List (String × Value)}
    {key : String} {value : Value}
    (hkeys : ∀ key, key ∈ entries.map Prod.fst ↔ key ∈ members.map Prod.fst)
    (hentry : (key, value) ∈ entries) : ∃ j, Json.LastMember members key j :=
  Json.exists_lastMember ((hkeys key).mp (List.mem_map_of_mem hentry))

theorem distinctKeys (h : Reads Arranged j v) : v.DistinctKeys := by
  induction h with
  | null => exact .none
  | boolean b => exact .boolean b
  | integer i => exact .integer i
  | large => exact .float _
  | float d => exact .float d
  | string s => exact .string s
  | array hlength _ ih =>
    refine .list fun value hvalue => ?_
    obtain ⟨i, hi⟩ := List.mem_iff_getElem?.mp hvalue
    obtain ⟨item, hitem⟩ := exists_item_of_length_eq hlength.symm hi
    exact ih i item value hitem hi
  | object hnodup hkeys _ _ ih =>
    refine .map hnodup fun entry hentry => ?_
    obtain ⟨j, hj⟩ := exists_lastMember hkeys hentry
    exact ih entry.1 j entry.2 hj hentry

/-- Finite data is read as a finite value. -/
theorem finite (h : Reads Arranged j v) (hj : j.Finite) : v.Finite := by
  induction h with
  | null => exact .none
  | boolean b => exact .boolean b
  | integer i => exact .integer i
  | large =>
    cases hj with
    | integer hn => exact .float (Double.isFinite_ofInt hn)
  | float d =>
    cases hj with
    | float hd => exact .float hd
  | string s => exact .string s
  | array hlength _ ih =>
    cases hj with
    | array hitems =>
      refine .list fun value hvalue => ?_
      obtain ⟨i, hi⟩ := List.mem_iff_getElem?.mp hvalue
      obtain ⟨item, hitem⟩ := exists_item_of_length_eq hlength.symm hi
      exact ih i item value hitem hi (hitems item (List.mem_of_getElem? hitem))
  | object _ hkeys _ _ ih =>
    cases hj with
    | object hmembers =>
      refine .map fun entry hentry => ?_
      obtain ⟨j, hj⟩ := exists_lastMember hkeys hentry
      exact ih entry.1 j entry.2 hj hentry (hmembers _ hj.mem)

theorem of_integer {n : Int} (h : Reads Arranged (.integer n) v) :
    (∃ i : Int64, n = i.toInt ∧ v = .integer i) ∨ fits n = false ∧ v = .float (Double.ofInt n) := by
  generalize hj : Json.integer n = j at h
  cases h with
  | integer i => exact Or.inl ⟨i, Json.integer.inj hj, rfl⟩
  | large hlarge =>
    cases hj
    exact Or.inr ⟨hlarge, rfl⟩
  | _ => cases hj

/-- **Values that read the same data are equal up to order**, however they arrange it. -/
theorem upToOrder (hv : Reads Arranged j v) (hw : Reads Arranged' j w) (hj : j.Finite) :
    v.UpToOrder w := by
  induction hv generalizing w with
  | null =>
    cases hw
    exact .none
  | boolean b =>
    cases hw
    exact .boolean b
  | integer i =>
    rcases hw.of_integer with ⟨i', hi, rfl⟩ | ⟨hlarge, rfl⟩
    · obtain rfl := Int64.toInt_inj.mp hi
      exact .integer i
    · cases hlarge.symm.trans (fits_toInt i)
  | large hlarge =>
    rcases hw.of_integer with ⟨i, rfl, rfl⟩ | ⟨-, rfl⟩
    · cases hlarge.symm.trans (fits_toInt i)
    · cases hj with
      | integer hn => exact .float (Double.not_isNaN_of_isFinite (Double.isFinite_ofInt hn))
  | float d =>
    cases hw
    cases hj with
    | float hd => exact .float (Double.not_isNaN_of_isFinite hd)
  | string s =>
    cases hw
    exact .string s
  | array hlength _ ih =>
    cases hw with
    | array hlength' hw =>
      cases hj with
      | array hitems =>
        refine .list (hlength.symm.trans hlength') fun i a b ha hb => ?_
        obtain ⟨item, hitem⟩ := exists_item_of_length_eq hlength.symm ha
        exact ih i item a hitem ha (hw i item b hitem hb)
          (hitems item (List.mem_of_getElem? hitem))
  | object hnodup hkeys _ _ ih =>
    cases hw with
    | object hnodup' hkeys' _ hw =>
      cases hj with
      | object hmembers =>
        have hperm := (List.perm_ext_iff_of_nodup hnodup hnodup').mpr fun key =>
          (hkeys key).trans (hkeys' key).symm
        refine .map hperm fun key a b ha hb => ?_
        obtain ⟨j, hj⟩ := exists_lastMember hkeys ha
        exact ih key j a hj ha (hw key j b hj hb) (hmembers _ hj.mem)

end Value.Reads

/-! ## 3. The two readings -/

namespace Value

/-- **A function reads data**, if it gives what holds no data its one value, goes through an array
item by item, and makes one entry for every key of an object. -/
structure IsReading (Arranged : List String → List String → Prop) (read : Json → Value) : Prop where
  leaf : ∀ j : Json, (∀ items, j ≠ .array items) → (∀ members, j ≠ .object members) →
    read j = ofJson j
  array : ∀ items, read (.array items) = .list (items.map read)
  object : ∀ members, ∃ entries, read (.object members) = .map entries ∧
    (entries.map Prod.fst).Nodup ∧
    (∀ key, key ∈ entries.map Prod.fst ↔ key ∈ members.map Prod.fst) ∧
    Arranged (members.map Prod.fst) (entries.map Prod.fst) ∧
    ∀ (key : String) (j : Json) (value : Value), Json.LastMember members key j →
      (key, value) ∈ entries → value = read j

namespace IsReading

variable {Arranged : List String → List String → Prop} {read : Json → Value}

mutual

/-- **What such a function gives reads the data.** -/
theorem reads (h : IsReading Arranged read) : (j : Json) → Reads Arranged j (read j)
  | .null => by
    rw [h.leaf .null nofun nofun]
    exact .null
  | .boolean b => by
    rw [h.leaf (.boolean b) nofun nofun]
    exact .boolean b
  | .integer n => by
    rw [h.leaf (.integer n) nofun nofun, ofJson, ofInt]
    split
    · rename_i hfits
      have hread : Reads Arranged (.integer (Int64.ofInt n).toInt) (.integer (Int64.ofInt n)) :=
        .integer _
      rwa [toInt_ofInt_of_fits hfits] at hread
    · rename_i hlarge
      exact .large (Bool.eq_false_iff.mpr hlarge)
  | .float d => by
    rw [h.leaf (.float d) nofun nofun]
    exact .float d
  | .string s => by
    rw [h.leaf (.string s) nofun nofun]
    exact .string s
  | .array items => by
    rw [h.array items]
    refine .array (List.length_map _).symm fun i item value hitem hvalue => ?_
    rw [List.getElem?_map, hitem] at hvalue
    cases hvalue
    exact h.reads_items items item (List.mem_of_getElem? hitem)
  | .object members => by
    obtain ⟨entries, hread, hnodup, hkeys, harranged, hvalues⟩ := h.object members
    rw [hread]
    refine .object hnodup hkeys harranged fun key j value hlast hentry => ?_
    rw [hvalues key j value hlast hentry]
    exact h.reads_members members _ hlast.mem

theorem reads_items (h : IsReading Arranged read) : (items : List Json) → ∀ item ∈ items,
    Reads Arranged item (read item)
  | [] => nofun
  | item :: items => List.forall_mem_cons.mpr ⟨h.reads item, h.reads_items items⟩

theorem reads_members (h : IsReading Arranged read) : (members : List (String × Json)) →
    ∀ m ∈ members, Reads Arranged m.2 (read m.2)
  | [] => nofun
  | (_, j) :: members => List.forall_mem_cons.mpr ⟨h.reads j, h.reads_members members⟩

end

end IsReading

theorem ofItems_eq_map (items : List Json) : ofItems items = items.map ofJson := by
  induction items with
  | nil => rfl
  | cons item rest ih => rw [ofItems, ih, List.map_cons]

/-- **The value of data reads it**, with the keys in the order in which they come first. -/
theorem isReading_ofJson : IsReading FirstOccurrence ofJson where
  leaf _ _ _ := rfl
  array items := by rw [ofJson, ofItems_eq_map]
  object members := by
    refine ⟨_, rfl, OrderedMap.nodup_keys_ofList _, fun key => ?_, ?_, ?_⟩
    · rw [← map_fst_ofMembers members]
      exact OrderedMap.mem_keys_ofList
    · rw [FirstOccurrence, ← map_fst_ofMembers members]
      exact OrderedMap.keys_ofList _
    · rintro key j value ⟨before, after, rfl, hafter⟩ hentry
      have hmembers : ofMembers (before ++ (key, j) :: after) =
          ofMembers before ++ (key, ofJson j) :: ofMembers after := by
        simp only [ofMembers_eq_map, List.map_append, List.map_cons]
      have hlast : key ∉ (ofMembers after).map Prod.fst := by rwa [map_fst_ofMembers]
      have hfound := (OrderedMap.find?_eq_some_iff_mem (OrderedMap.nodup_keys_ofList _)).mpr hentry
      rw [hmembers, OrderedMap.find?_ofList_append_cons _ _ _ hlast] at hfound
      exact (Option.some.inj hfound).symm

/-- **The value of sorted data reads the data**, with the keys in their byte order. -/
theorem isReading_sorted : IsReading InByteOrder fun j => ofJson j.sorted where
  leaf j harray hobject := by
    cases j with
    | array items => exact absurd rfl (harray items)
    | object members => exact absurd rfl (hobject members)
    | _ => rfl
  array items := by
    rw [Json.sorted, ofJson, ofItems_sortedItems_eq_map]
  object members := by
    have hascending : ((Json.sortedMembers [] members).map Prod.fst).Pairwise (· < ·) :=
      Json.pairwise_sortedMembers .nil
    have hnodup : ((Json.sortedMembers [] members).map Prod.fst).Nodup :=
      hascending.imp String.ne_of_lt
    have hread : ofJson (Json.object members).sorted =
        .map (ofMembers (Json.sortedMembers [] members)) := by
      rw [Json.sorted, ofJson, OrderedMap.entries_ofList (by rwa [map_fst_ofMembers])]
    refine ⟨_, hread, ?_⟩
    rw [map_fst_ofMembers]
    refine ⟨hnodup, fun key => ?_, hascending.imp ByteOrder.utf8_lt,
      fun key j value hlast hentry => ?_⟩
    · rw [Json.mem_keys_sortedMembers]
      exact or_iff_right List.not_mem_nil
    · rw [ofMembers_eq_map] at hentry
      obtain ⟨⟨_, j'⟩, hj', heq⟩ := List.mem_map.mp hentry
      obtain ⟨rfl, rfl⟩ := Prod.mk.inj heq
      have hfound := (OrderedMap.find?_eq_some_iff_mem (m := ⟨Json.sortedMembers [] members⟩)
        hnodup).mpr hj'
      rw [OrderedMap.find?, Json.lookup_sortedMembers hlast] at hfound
      rw [Option.some.inj hfound]

/-! ## 4. Trying the kinds of value in turn -/

/-- The kinds of value that hold no values, each with the data it takes.  An integer that is too
large for an integer is taken as a float. -/
def leafKinds : List (Json → Option Value) := [
  fun | .null => some .none | _ => Option.none,
  fun | .boolean b => some (.boolean b) | _ => Option.none,
  fun | .integer n => if fits n then some (.integer (Int64.ofInt n)) else Option.none
      | _ => Option.none,
  fun | .float d => some (.float d) | .integer n => some (.float (Double.ofInt n))
      | _ => Option.none,
  fun | .string s => some (.string s) | _ => Option.none]

/-- What the first of these kinds makes of the data. -/
def decodeLeaf? (j : Json) : Option Value := leafKinds.findSome? fun kind => kind j

mutual

/-- **The value of data found by trying**: the kinds that hold no values in their order, a list, and
a map; the first that takes the data is it. -/
def decode? : Json → Option Value
  | .array items => (decodeLeaf? (.array items)).or ((decodeItems? items).map .list)
  | .object members => (decodeLeaf? (.object members)).or
      ((decodeMembers? members).map fun entries => .map (OrderedMap.ofList entries).entries)
  | j => decodeLeaf? j

/-- The values of items, if all have one. -/
def decodeItems? : List Json → Option (List Value)
  | [] => some []
  | item :: rest => (decode? item).bind fun value => (decodeItems? rest).map (value :: ·)

/-- The entries of members, if all have one. -/
def decodeMembers? : List (String × Json) → Option (List (String × Value))
  | [] => some []
  | (key, item) :: rest =>
    (decode? item).bind fun value => (decodeMembers? rest).map ((key, value) :: ·)

end

mutual

/-- **Trying finds a value for all data**, and it is the value of the data. -/
theorem decode?_eq : (j : Json) → decode? j = some (ofJson j)
  | .null => rfl
  | .boolean _ => rfl
  | .integer n => by
    rw [ofJson, ofInt]
    by_cases hfits : fits n = true <;> simp [decode?, decodeLeaf?, leafKinds, hfits]
  | .float _ => rfl
  | .string _ => rfl
  | .array items => by rw [decode?, decodeItems?_eq items]; rfl
  | .object members => by rw [decode?, decodeMembers?_eq members]; rfl

theorem decodeItems?_eq : (items : List Json) → decodeItems? items = some (ofItems items)
  | [] => rfl
  | item :: items => by rw [decodeItems?, decode?_eq item, decodeItems?_eq items]; rfl

theorem decodeMembers?_eq : (members : List (String × Json)) →
    decodeMembers? members = some (ofMembers members)
  | [] => rfl
  | (_, j) :: members => by rw [decodeMembers?, decode?_eq j, decodeMembers?_eq members]; rfl

end

/-! ## 5. Agreement -/

/-- **Two readings of the same data agree**: they are equal either way round, each is the data in
its own order, and there is no NaN and no infinity in them. -/
structure Agree (j : Json) (v w : Value) : Prop where
  equal : v.equal w = true
  symm : w.equal v = true
  direct : Reads FirstOccurrence j v
  sorted : Reads InByteOrder j w
  finite : v.Finite ∧ w.Finite

theorem agree {j : Json} (hj : j.Finite) : Agree j (ofJson j) (ofJson j.sorted) := by
  have hv := isReading_ofJson.reads j
  have hw := isReading_sorted.reads j
  exact {
    equal := (equal_iff_upToOrder _ hv.distinctKeys hw.distinctKeys).mpr (hv.upToOrder hw hj)
    symm := (equal_iff_upToOrder _ hw.distinctKeys hv.distinctKeys).mpr (hw.upToOrder hv hj)
    direct := hv
    sorted := hw
    finite := ⟨hv.finite hj, hw.finite hj⟩ }

/-- **The two ways of reading a text agree**: trying the kinds of value on what is written, and
making a value of the sorted data, fail on the same texts and agree on all others. -/
theorem readings_agree (text : String) : read? text = (Json.read? text).bind decode? ∧
    ((read? text = Option.none ∧ readSorted? text = Option.none) ∨
      ∃ j v w, Json.read? text = some j ∧ read? text = some v ∧ readSorted? text = some w ∧
        Agree j v w) := by
  cases hread : Json.read? text with
  | none => simp [read?, readSorted?, hread]
  | some j =>
    refine ⟨?_, Or.inr ⟨j, _, _, rfl, ?_, ?_, agree (Json.finite_read? hread)⟩⟩
    · rw [read?, hread, Option.map_some, Option.bind_some, decode?_eq]
    · rw [read?, hread, Option.map_some]
    · rw [readSorted?, hread, Option.map_some]

example : read? "\x7b\"b\":true,\"a\":null,\"b\":[]\x7d" =
      some (.map [("b", .list []), ("a", .none)]) ∧
    readSorted? "\x7b\"b\":true,\"a\":null,\"b\":[]\x7d" =
      some (.map [("a", .none), ("b", .list [])]) := by
  constructor <;> cbv

end Value

end MethodGuard
