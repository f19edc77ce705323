/-
# What a call binds to

Binding takes three steps and hands values on under names, from one map to the next.  Where the
parameters have different names, all that comes of it can be read off the declaration and the call:

* `Signature.supplied?` is the value that a call supplies for a name,
* `Signature.refusal?` is the reason why a call is refused, if it is,
* `BoundArguments.Fills` says what the bound arguments are, if it is not.

`Signature.bind_as_declared` says that binding is just that.  Each of the two loops of binding has a
closed form of its own: keywords are taken until one is at fault (`assignKeywords_eq`), and the walk
over the parameters ends at the first one that has neither a value nor a default (`collect_eq`).
-/
import MethodGuard.Proofs.Signature.Respelling

namespace MethodGuard

/-! ## 1. What a call supplies, and why it is refused -/

/-- A result, unless there is a reason to refuse it. -/
def okUnless {ε : Type u} {α : Type v} : Option ε → α → Except ε α
  | some e, _ => .error e
  | none, result => .ok result

theorem okUnless_eq_error_iff {ε : Type u} {α : Type v} {reason : Option ε} {result : α} {e : ε} :
    okUnless reason result = .error e ↔ reason = some e := by
  cases reason <;> simp [okUnless]

theorem okUnless_eq_ok_iff {ε : Type u} {α : Type v} {reason : Option ε} {result : α} :
    okUnless reason result = .ok result ↔ reason = none := by
  cases reason <;> simp [okUnless]

namespace Signature

variable {s : Signature} {a : Arguments}

/-- **The value that a call supplies for a name**: the positional values are for the first
parameters that take them, in order, and the keyword values for the parameters they name. -/
def supplied? (s : Signature) (a : Arguments) (name : String) : Option Value :=
  (s.named a).lookup name

/-- What is wrong with a keyword when some names are filled: it names no parameter, or one of the
filled ones. -/
def keywordFault? (s : Signature) (filled : List String) (name : String) : Option BindError :=
  if name ∉ s.parameters.map (·.name) then some (.unexpectedKeyword name)
  else if name ∈ filled then some (.multipleValues name)
  else none

/-- Whether a parameter is left without a value: the call supplies none, and it has no default. -/
def lacks (s : Signature) (a : Arguments) (p : Parameter) : Bool :=
  (s.supplied? a p.name).isNone && p.fallback.isNone

/-- **Why a call is refused, if it is.**  Too many positional values come first, with the number of
parameters that take them; then the first keyword at fault, in the caller's order; then the first
parameter left without a value, in the order of declaration. -/
def refusal? (s : Signature) (a : Arguments) : Option BindError :=
  if s.positionalNames.length < a.positional.length then
    some (.tooManyPositional s.positionalNames.length a.positional.length)
  else
    (a.keyword.keys.findSome? (s.keywordFault? (s.positionalNames.take a.positional.length))).or
      ((s.parameters.find? (s.lacks a)).map fun p => .missingArgument p.name)

end Signature

/-- **What the bound arguments of a call are**, told from the signature and the call. -/
structure BoundArguments.Fills (b : BoundArguments) (s : Signature) (a : Arguments) : Prop where
  /-- The names are those of the parameters, in the order of declaration. -/
  names : b.values.keys = s.parameters.map (·.name)
  /-- A parameter has the value that the caller supplied for it, or else its default. -/
  values : ∀ p ∈ s.parameters, b.find? p.name = (s.supplied? a p.name).or p.fallback
  /-- The names reported as supplied are those that the caller supplied a value for. -/
  isSupplied : ∀ name, b.isSupplied name = true ↔ (s.supplied? a name).isSome = true
  /-- The supplied names and values are listed in the order of declaration. -/
  supplied : b.supplied =
    s.parameters.filterMap fun p => (s.supplied? a p.name).map fun value => (p.name, value)

/-! ## 2. Keywords -/

namespace Signature

variable {s : Signature} {a : Arguments}

/-- **Keywords are taken until one is at fault.**  No keyword is given twice, so the names that
keywords fill on the way make no other keyword faulty. -/
theorem assignKeywords_eq {keywords : List (String × Value)} {assigned : OrderedMap Value}
    {filled : List String} (hkeywords : (keywords.map Prod.fst).Nodup)
    (hfilled : ∀ name ∈ keywords.map Prod.fst, name ∈ filled ↔ name ∈ assigned.keys) :
    s.assignKeywords assigned keywords =
      okUnless ((keywords.map Prod.fst).findSome? (s.keywordFault? filled))
        ⟨assigned.entries ++ keywords⟩ := by
  induction keywords generalizing assigned with
  | nil => simp [assignKeywords, okUnless]
  | cons keyword rest ih =>
    obtain ⟨name, value⟩ := keyword
    rw [List.map_cons] at hkeywords hfilled
    obtain ⟨hnew, hrest⟩ := List.nodup_cons.mp hkeywords
    have htaken : name ∈ filled ↔ name ∈ assigned.keys := hfilled name List.mem_cons_self
    have hunknown : (s.find? name).isNone = true ↔ name ∉ s.parameters.map (·.name) :=
      Option.isNone_iff_eq_none.trans find?_eq_none_iff
    rw [assignKeywords, List.map_cons, List.findSome?_cons, keywordFault?]
    by_cases hname : name ∈ s.parameters.map (·.name)
    · rw [if_neg fun hnone => hunknown.mp hnone hname, if_neg (not_not_intro hname)]
      by_cases hassigned : name ∈ assigned.keys
      · rw [if_pos (OrderedMap.contains_iff.mpr hassigned), if_pos (htaken.mpr hassigned)]
        rfl
      · rw [if_neg fun h => hassigned (OrderedMap.contains_iff.mp h),
          if_neg fun h => hassigned (htaken.mp h)]
        have hfilled' : ∀ other ∈ rest.map Prod.fst,
            other ∈ filled ↔ other ∈ (assigned.insert name value).keys := by
          intro other hother
          have hne : other ≠ name := fun heq => hnew (heq ▸ hother)
          rw [OrderedMap.mem_keys_insert, hfilled other (List.mem_cons_of_mem _ hother)]
          exact ⟨Or.inr, fun h => h.resolve_left hne⟩
        rw [ih hrest hfilled', OrderedMap.entries_insert_of_not_mem hassigned, List.append_assoc,
          List.singleton_append]
    · rw [if_pos (hunknown.mpr hname), if_pos hname]
      rfl

end Signature

/-! ## 3. The walk over the parameters -/

namespace BoundArguments

/-- Bound arguments with some parameters added: each has its supplied value or else its default,
and the names of those that are not supplied are remembered. -/
def filled (b : BoundArguments) (supplied? : String → Option Value) (ps : List Parameter) :
    BoundArguments where
  values := ⟨b.values.entries ++
    ps.filterMap fun p => ((supplied? p.name).or p.fallback).map fun value => (p.name, value)⟩
  defaulted := b.defaulted ++ (ps.filter fun p => (supplied? p.name).isNone).map (·.name)

variable {b : BoundArguments} {supplied? : String → Option Value} {p : Parameter} {value : Value}

/-- A new parameter that is supplied comes first. -/
theorem filled_supply (hnew : p.name ∉ b.values.keys) (h : supplied? p.name = some value)
    (rest : List Parameter) :
    (b.supply p.name value).filled supplied? rest = b.filled supplied? (p :: rest) := by
  simp [filled, supply, OrderedMap.entries_insert_of_not_mem hnew, h]

/-- A new parameter that falls back comes first, and is remembered. -/
theorem filled_fallBack (hnew : p.name ∉ b.values.keys)
    (hdefaulted : ∀ name ∈ b.defaulted, name ∈ b.values.keys) (h : supplied? p.name = none)
    (hfallback : p.fallback = some value) (rest : List Parameter) :
    (b.fallBack p.name value).filled supplied? rest = b.filled supplied? (p :: rest) := by
  have hunmarked : p.name ∉ b.defaulted := fun hmem => hnew (hdefaulted p.name hmem)
  simp [filled, fallBack, OrderedMap.entries_insert_of_not_mem hnew, h, hfallback, hunmarked]

end BoundArguments

namespace Signature

variable {s : Signature} {a : Arguments}

/-- **The walk ends at the first parameter left without a value**, or fills all of them. -/
theorem collect_eq {supplied? : String → Option Value} {ps : List Parameter}
    {assigned : OrderedMap Value} {b : BoundArguments}
    (hnames : (b.values.keys ++ ps.map (·.name)).Nodup)
    (hdefaulted : ∀ name ∈ b.defaulted, name ∈ b.values.keys)
    (hassigned : ∀ p ∈ ps, assigned.find? p.name = supplied? p.name) :
    collect assigned b ps =
      okUnless ((ps.find? fun p => (supplied? p.name).isNone && p.fallback.isNone).map fun p =>
        .missingArgument p.name) (b.filled supplied? ps) := by
  induction ps generalizing assigned b with
  | nil => simp [collect, BoundArguments.filled, okUnless]
  | cons p rest ih =>
    have hnew : p.name ∉ b.values.keys := fun hmem =>
      List.disjoint_of_nodup_append hnames hmem List.mem_cons_self
    have hnames' (value : Value) :
        ((b.values.insert p.name value).keys ++ rest.map (·.name)).Nodup := by
      rw [OrderedMap.keys_insert, if_neg hnew, List.append_assoc]
      exact hnames
    obtain ⟨hfirst, hrest⟩ := List.forall_mem_cons.mp hassigned
    rw [collect, hfirst, List.find?_cons]
    cases hvalue : supplied? p.name with
    | some value =>
      -- the value is used up, which no other parameter can see
      have herased : ∀ q ∈ rest, (assigned.erase p.name).find? q.name = supplied? q.name := by
        intro q hq
        have hne : q.name ≠ p.name := by
          intro heq
          have hnodup := (List.nodup_append.mp hnames).2.1
          exact (List.nodup_cons.mp hnodup).1 (List.mem_map.mpr ⟨q, hq, heq⟩)
        rw [OrderedMap.find?_erase, if_neg hne, hrest q hq]
      have hmarked : ∀ name ∈ (b.supply p.name value).defaulted,
          name ∈ (b.supply p.name value).values.keys := fun name hname =>
        OrderedMap.mem_keys_insert.mpr (Or.inr (hdefaulted name hname))
      simp only [Option.isNone_some, Bool.false_and]
      rw [ih (hnames' value) hmarked herased, BoundArguments.filled_supply hnew hvalue]
    | none =>
      cases hfallback : p.fallback with
      | some value =>
        have hmarked : ∀ name ∈ (b.fallBack p.name value).defaulted,
            name ∈ (b.fallBack p.name value).values.keys := by
          intro name hname
          rcases BoundArguments.mem_defaulted_fallBack.mp hname with rfl | hname
          · exact OrderedMap.mem_keys_insert.mpr (Or.inl rfl)
          · exact OrderedMap.mem_keys_insert.mpr (Or.inr (hdefaulted name hname))
        simp only [Option.isNone_none, Option.isNone_some, Bool.and_false]
        rw [ih (hnames' value) hmarked hrest,
          BoundArguments.filled_fallBack hnew hdefaulted hvalue hfallback]
      | none => rfl

end Signature

/-! ## 4. Binding -/

namespace BoundArguments

variable {s : Signature} {a : Arguments} {supplied? : String → Option Value} {ps : List Parameter}

theorem mem_defaulted_filled {name : String} :
    name ∈ (empty.filled supplied? ps).defaulted ↔
      name ∈ ps.map (·.name) ∧ supplied? name = none := by
  simp only [filled, empty, List.nil_append, List.mem_map, List.mem_filter,
    Option.isNone_iff_eq_none]
  constructor
  · rintro ⟨p, ⟨hp, hnone⟩, rfl⟩
    exact ⟨⟨p, hp, rfl⟩, hnone⟩
  · rintro ⟨⟨p, hp, rfl⟩, hnone⟩
    exact ⟨p, ⟨hp, hnone⟩, rfl⟩

/-- Where every parameter has a value, all their names are there. -/
theorem keys_filled (h : ∀ p ∈ ps, ((supplied? p.name).or p.fallback).isSome = true) :
    (empty.filled supplied? ps).values.keys = ps.map (·.name) := by
  simp only [filled, empty, OrderedMap.empty, OrderedMap.keys, List.nil_append]
  induction ps with
  | nil => rfl
  | cons p rest ih =>
    obtain ⟨hp, hrest⟩ := List.forall_mem_cons.mp h
    obtain ⟨value, hvalue⟩ := Option.isSome_iff_exists.mp hp
    rw [List.filterMap_cons_some (by rw [hvalue]; rfl), List.map_cons, List.map_cons, ih hrest]

/-- **The parameters, filled, are what the call binds to**, if none of them is left without a value
and the call supplies values for parameters only. -/
theorem fills_filled (hnames : (s.parameters.map (·.name)).Nodup)
    (hlacks : ∀ p ∈ s.parameters, s.lacks a p = false)
    (hknown : ∀ name, (s.supplied? a name).isSome = true → name ∈ s.parameters.map (·.name)) :
    (empty.filled (s.supplied? a) s.parameters).Fills s a := by
  have hvalues : ∀ p ∈ s.parameters, ((s.supplied? a p.name).or p.fallback).isSome = true := by
    intro p hp
    have hp' := hlacks p hp
    rw [Signature.lacks] at hp'
    cases hsupplied : s.supplied? a p.name <;> cases hfallback : p.fallback <;> simp_all
  have hkeys := keys_filled hvalues
  refine ⟨hkeys, ?_, ?_, ?_⟩
  · intro p hp
    obtain ⟨value, hvalue⟩ := Option.isSome_iff_exists.mp (hvalues p hp)
    rw [hvalue, find?, OrderedMap.find?_eq_some_iff_mem (hkeys ▸ hnames)]
    exact List.mem_append_right _ (List.mem_filterMap.mpr ⟨p, hp, by rw [hvalue]; rfl⟩)
  · intro name
    rw [isSupplied_iff, hkeys, mem_defaulted_filled, ← Option.ne_none_iff_isSome]
    constructor
    · rintro ⟨hname, hsupplied⟩ hnone
      exact hsupplied ⟨hname, hnone⟩
    · intro hsupplied
      exact ⟨hknown name (Option.ne_none_iff_isSome.mp hsupplied), fun h => hsupplied h.2⟩
  · have hentries : (empty.filled (s.supplied? a) s.parameters).values.entries =
        s.parameters.filterMap fun p =>
          ((s.supplied? a p.name).or p.fallback).map fun value => (p.name, value) := rfl
    rw [supplied, entries, hentries, List.filter_filterMap]
    refine List.filterMap_congr fun p hp => ?_
    have hmarked : p.name ∈ (empty.filled (s.supplied? a) s.parameters).defaulted ↔
        s.supplied? a p.name = none := by
      rw [mem_defaulted_filled]
      exact and_iff_right (List.mem_map_of_mem hp)
    cases hsupplied : s.supplied? a p.name with
    | some value =>
      rw [hsupplied] at hmarked
      simp [hmarked]
    | none =>
      rw [hsupplied] at hmarked
      cases p.fallback <;> simp [hmarked]

end BoundArguments

namespace Signature

variable {s : Signature} {a : Arguments}

/-- **Binding has a closed form** where the names of the parameters differ. -/
theorem bind_eq (hnames : (s.parameters.map (·.name)).Nodup) (hkeywords : a.keyword.keys.Nodup) :
    s.bind a =
      okUnless (s.refusal? a) (BoundArguments.empty.filled (s.supplied? a) s.parameters) := by
  have hslots : s.positionalNames.length = s.positionalParameters.length := List.length_map _
  have hfilled : (s.assignPositional a.positional).keys =
      s.positionalNames.take a.positional.length := by
    rw [OrderedMap.keys, entries_assignPositional hnames, map_fst_zip]
  have hwalk : collect ⟨s.named a⟩ .empty s.parameters =
      okUnless ((s.parameters.find? (s.lacks a)).map fun p => .missingArgument p.name)
        (BoundArguments.empty.filled (s.supplied? a) s.parameters) :=
    collect_eq hnames (fun _ hname => absurd hname List.not_mem_nil) fun _ _ => rfl
  rw [bind, refusal?, ← hslots]
  by_cases hmany : s.positionalNames.length < a.positional.length
  · rw [if_pos hmany, if_pos hmany]
    rfl
  · rw [if_neg hmany, if_neg hmany, assignKeywords_eq hkeywords fun name _ => by rw [hfilled],
      entries_assignPositional hnames, ← OrderedMap.keys]
    cases a.keyword.keys.findSome? _ with
    | some e => rfl
    | none =>
      rw [Option.none_or]
      exact hwalk

theorem keywordFault?_eq_none_iff {filled : List String} {name : String} :
    s.keywordFault? filled name = none ↔ name ∈ s.parameters.map (·.name) ∧ name ∉ filled := by
  rw [keywordFault?]
  by_cases hname : name ∈ s.parameters.map (·.name)
  · by_cases htaken : name ∈ filled <;> simp [hname, htaken]
  · simp [hname]

/-- A call that is not refused has parameters for all its values, and values for all parameters. -/
theorem refusal?_eq_none_iff : s.refusal? a = none ↔
    a.positional.length ≤ s.positionalNames.length ∧
      (∀ name ∈ a.keyword.keys, name ∈ s.parameters.map (·.name) ∧
        name ∉ s.positionalNames.take a.positional.length) ∧
      ∀ p ∈ s.parameters, s.lacks a p = false := by
  rw [refusal?]
  by_cases hmany : s.positionalNames.length < a.positional.length
  · rw [if_pos hmany]
    simp [Nat.not_le.mpr hmany]
  · rw [if_neg hmany, Option.or_eq_none_iff, Option.map_eq_none_iff, List.findSome?_eq_none_iff,
      List.find?_eq_none]
    simp only [keywordFault?_eq_none_iff, Bool.not_eq_true, Nat.not_lt.mp hmany, true_and]

/-- What a call supplies is for its parameters, unless it is refused. -/
theorem mem_names_of_supplied (h : s.refusal? a = none) {name : String}
    (hsupplied : (s.supplied? a name).isSome = true) : name ∈ s.parameters.map (·.name) := by
  obtain ⟨entry, hentry, hname⟩ := List.lookup_isSome_iff.mp hsupplied
  obtain rfl : name = entry.1 := by simpa using hname
  have hknown : ∀ keyword ∈ a.keyword.entries, keyword.1 ∈ s.parameters.map (·.name) :=
    fun keyword hkeyword =>
      ((refusal?_eq_none_iff.mp h).2.1 keyword.1 (List.mem_map_of_mem hkeyword)).1
  exact fst_mem_names hknown hentry

/-- **Binding does what the declaration says**, when the names of the parameters differ.  It fails
with the reason there is to refuse the call, and only with that one; and if there is none, it fills
the parameters as the call and their defaults say.  No map of keywords holds a name twice:
`Arguments.kwarg` inserts them (`OrderedMap.nodup_keys_insert`). -/
theorem bind_as_declared (hnames : (s.parameters.map (·.name)).Nodup)
    (hkeywords : a.keyword.keys.Nodup) :
    (∀ e, s.bind a = .error e ↔ s.refusal? a = some e) ∧
      (s.refusal? a = none → ∃ b, s.bind a = .ok b ∧ b.Fills s a) := by
  have hbind := bind_eq hnames hkeywords
  constructor
  · intro e
    rw [hbind, okUnless_eq_error_iff]
  · intro hrefusal
    rw [hrefusal] at hbind
    exact ⟨_, hbind, BoundArguments.fills_filled hnames (refusal?_eq_none_iff.mp hrefusal).2.2
      fun _ => mem_names_of_supplied hrefusal⟩

/-- A method with a keyword-only parameter between two that take positional values. -/
def drawing : Signature where
  parameters := [.typed "width" .integer,
    ⟨"color", some .string, .keywordOnly, some (.string "red")⟩,
    ⟨"height", some .integer, .positionalOrKeyword, some (.integer 1)⟩]
  returns := none

theorem bind_as_declared_drawing :
    let filled : Arguments := (Arguments.ofValues [.integer 3]).kwarg "color" (.string "blue")
    let refused : Arguments := filled.kwarg "width" (.integer 4)
    ((drawing.parameters.map (·.name)).Nodup ∧ filled.keyword.keys.Nodup ∧
      refused.keyword.keys.Nodup) ∧
    (∃ b, drawing.bind filled = .ok b ∧ b.Fills drawing filled) ∧
      drawing.bind refused = .error (.multipleValues "width") := by
  intro filled refused
  have hnames : (drawing.parameters.map (·.name)).Nodup := by decide
  have hfilled : filled.keyword.keys.Nodup := by decide
  have hrefused : refused.keyword.keys.Nodup := by decide
  exact ⟨⟨hnames, hfilled, hrefused⟩, (bind_as_declared hnames hfilled).2 rfl,
    ((bind_as_declared hnames hrefused).1 _).mpr rfl⟩

end Signature

end MethodGuard
