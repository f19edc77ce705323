/-
# Searching the registry

A search lists the registered names that hold the query, in their order, and takes upper and lower
case for one: query and names are lower-cased first, each for itself.  So a name that holds the
query letter for letter is found if the capital sigmas of the query keep their forms in the name,
and it can be missed if they do not: the final sigma of a query is not found inside a word.

Which queries are safe is decided by the query alone (`Lowercase.AllSettled`): a query that is not
misses some name that it occurs in, since any text can be the name of a registered class.
-/
import MethodGuard.Proofs.Text.Lowercase
import MethodGuard.Proofs.World.Registration

namespace MethodGuard

open Lowercase (AllSettled KeepsForms)

theorem toList_lowercase (s : String) : (lowercase s).toList = Lowercase.chars [] s.toList := by
  rw [lowercase, String.toList_ofList]

/-! ## 1. What is found -/

namespace Registry

variable {r : Registry} {query name : String}

theorem search_sublist (r : Registry) (query : String) : (r.search query).Sublist r.names :=
  List.filter_sublist

theorem mem_search_iff : name ∈ r.search query ↔
    name ∈ r.names ∧ (lowercase query).toList <:+: (lowercase name).toList := by
  rw [search, List.mem_filter, occursIn_iff]

/-- A registered name is found if it holds the query and the sigmas of the query keep their forms
there. -/
theorem mem_search_of_keepsForms (hname : name ∈ r.names) {left right : List Char}
    (hheld : name.toList = left ++ query.toList ++ right)
    (hforms : KeepsForms left query.toList right) : name ∈ r.search query := by
  rw [mem_search_iff, toList_lowercase, toList_lowercase, hheld]
  exact ⟨hname, Lowercase.isInfix_of_keepsForms hforms⟩

/-- **What a search gives** after some actions: registered names in their order, none twice, and
among those that hold the query those where it keeps its forms. -/
structure SearchesFor (r : Registry) (actions : List Action) (query : String) : Prop where
  sublist : (r.search query).Sublist r.names
  nodup : (r.search query).Nodup
  /-- The order is the one in which the names came in. -/
  ordered : (r.search query).Pairwise fun a b =>
    ∃ i j, EnteredAt actions a i ∧ EnteredAt actions b j ∧ i < j
  /-- Upper and lower case are one, for the query and the names as a whole. -/
  mem_iff : ∀ name, name ∈ r.search query ↔
    name ∈ r.names ∧ (lowercase query).toList <:+: (lowercase name).toList
  /-- What holds the query letter for letter is found unless a sigma changes. -/
  literal : ∀ name ∈ r.names, ∀ left right, name.toList = left ++ query.toList ++ right →
    KeepsForms left query.toList right → name ∈ r.search query

/-- Every registered name that holds the query letter for letter is found. -/
def FindsLiteral (r : Registry) (query : String) : Prop :=
  ∀ name ∈ r.names, query.toList <:+: name.toList → name ∈ r.search query

theorem Tracks.searchesFor {actions : List Action} (h : r.Tracks actions) (query : String) :
    r.SearchesFor actions query where
  sublist := r.search_sublist query
  nodup := h.nodup.sublist (r.search_sublist query)
  ordered := h.ordered.sublist (r.search_sublist query)
  mem_iff := fun _ => mem_search_iff
  literal := fun _ hname _ _ => mem_search_of_keepsForms hname

theorem findsLiteral_of_allSettled (h : AllSettled query.toList) : r.FindsLiteral query := by
  rintro name hname ⟨left, right, hheld⟩
  exact mem_search_of_keepsForms hname hheld.symm (h.keepsForms left right)

/-- Queries without capital sigmas are found wherever they stand. -/
theorem findsLiteral_of_not_mem (h : 'Σ' ∉ query.toList) : r.FindsLiteral query :=
  findsLiteral_of_allSettled (Lowercase.allSettled_of_not_mem h)

end Registry

/-! ## 2. Names that can be registered -/

namespace Session

/-- The class of an empty statement. -/
def bare (name : String) : Class := .ofDefinition ⟨name, [], []⟩ 0 []

theorem bare_defined (name : String) : Class.define 0 ⟨name, [], []⟩ = .ok (bare name) :=
  Class.define_eq_ok_iff.mpr ⟨rfl, rfl, rfl, [], Linearization.merge?_of_isEmpty _ rfl, rfl⟩

/-- **Any text can be the name of a registered class.** -/
theorem exists_reaches_named (name : String) : ∃ S log, initial.Reaches log S ∧
    S.world.registry.names = [name] := by
  have hdefine : Class.define ([] : List Class).length ⟨name, [], []⟩ = .ok (bare name) :=
    bare_defined name
  have hbuilt := Reaches.start.step (step_building (by simp) hdefine)
  have hregistered := hbuilt.step (.register (c := bare name) List.mem_cons_self)
  exact ⟨_, _, hregistered, rfl⟩

/-! ## 3. Searches in sessions -/

/-- **What a search finds, and which queries it finds wherever they stand**: those whose capital
sigmas are settled by the query itself. -/
theorem search_exact (query : String) :
    (∀ S log, initial.Reaches log S →
      S.world.registry.SearchesFor (log.map Prod.fst) query) ∧
    ((∀ S log, initial.Reaches log S → S.world.registry.FindsLiteral query) ↔
      AllSettled query.toList) := by
  refine ⟨fun S log hrun => hrun.tracks.searchesFor query, fun hfinds => ?_,
    fun hsettled _ _ _ => Registry.findsLiteral_of_allSettled hsettled⟩
  refine Lowercase.isInfix_lowerCase_iff.mp fun left right => ?_
  obtain ⟨S, log, hrun, hnames⟩ :=
    exists_reaches_named (String.ofList (left ++ query.toList ++ right))
  have hname : String.ofList (left ++ query.toList ++ right) ∈ S.world.registry.names :=
    hnames ▸ List.mem_cons_self
  have hfound := hfinds S log hrun _ hname (by rw [String.toList_ofList]; exact ⟨_, _, rfl⟩)
  have hlower := (Registry.mem_search_iff.mp hfound).2
  rwa [toList_lowercase, toList_lowercase, String.toList_ofList] at hlower

/-- A sigma is settled by a letter that follows it, and is not settled by one that precedes it. -/
theorem search_exact_meso : (∃ S log, initial.Reaches log S ∧
      S.world.registry.search "ΣΟ" = ["ΜΕΣΟ"] ∧
      S.world.registry.SearchesFor (log.map Prod.fst) "ΣΟ" ∧
      S.world.registry.FindsLiteral "ΣΟ") ∧
    AllSettled "ΣΟ".toList ∧ ¬ AllSettled "ΜΕΣ".toList := by
  have hsettled : AllSettled "ΣΟ".toList := by
    intro before after hquery
    cases before with
    | nil =>
      obtain rfl : ['Ο'] = after := by simpa using hquery
      decide
    | cons first before =>
      have hrest : ['Ο'] = before ++ 'Σ' :: after := (List.cons.inj hquery).2
      have hmem : 'Σ' ∈ ['Ο'] := hrest ▸ List.mem_append_right before List.mem_cons_self
      exact absurd hmem (by decide)
  have hopen : ¬ AllSettled "ΜΕΣ".toList := by
    intro h
    have hlast := h ['Μ', 'Ε'] [] rfl
    revert hlast
    decide
  obtain ⟨S, log, hrun, hnames⟩ := exists_reaches_named "ΜΕΣΟ"
  have hfound : S.world.registry.search "ΣΟ" = ["ΜΕΣΟ"] := by
    rw [Registry.search, hnames]
    decide
  exact ⟨⟨S, log, hrun, hfound, (search_exact "ΣΟ").1 S log hrun,
    (search_exact "ΣΟ").2.mpr hsettled S log hrun⟩, hsettled, hopen⟩

/-- **A name can be missed that begins with the query**: alone, the sigma of the query ends a
word. -/
theorem exists_missed_literal : ∃ S log, initial.Reaches log S ∧
    "ΜΕΣΟ" ∈ S.world.registry.names ∧ "ΜΕΣ".toList <:+: "ΜΕΣΟ".toList ∧
    "ΜΕΣΟ" ∉ S.world.registry.search "ΜΕΣ" := by
  obtain ⟨S, log, hrun, hnames⟩ := exists_reaches_named "ΜΕΣΟ"
  refine ⟨S, log, hrun, hnames ▸ List.mem_cons_self, ⟨[], ['Ο'], by decide⟩, fun hfound => ?_⟩
  have hlower := (Registry.mem_search_iff.mp hfound).2
  revert hlower
  decide

end Session

end MethodGuard
