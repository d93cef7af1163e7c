import Mathlib.Data.List.Basic
import Phrasebook.Proofs.Resource.Named
import Phrasebook.Proofs.Text.Split
/-!
# Flattening — the leaves of a block, and the keys they are known by

A leaf stands in a block at an address, the places of the entries on the way to it, and its path are
their names.  Flattening lists every leaf once, by ascending addresses, under its path with a dot in
front of every name.  The names of a file that parses have no dots of their own, so that a key can
be split into its path again: leaves share a key exactly if they share their path
(`Tree.flatten_of_parse`).
-/
namespace Phrasebook.Resource

/-! ## Names and leaves -/

/-- The name of an entry in the value, at whatever depth. -/
inductive Value.HasName : Value → String → Prop
  | here {entries : List (String × Value)} {name : String} {value : Value}
    (h : (name, value) ∈ entries) : HasName (.block entries) name
  | inside {entries : List (String × Value)} {outer name : String} {value : Value}
    (h : (outer, value) ∈ entries) (inner : HasName value name) : HasName (.block entries) name

/-- A leaf of a value, with the places of the entries on the way to it and their names. -/
structure Site where
  address : List Nat
  path    : List String
  leaf    : Leaf
deriving DecidableEq, Repr

/-- The site behind an entry. -/
def Site.behind (place : Nat) (name : String) (s : Site) : Site :=
  ⟨place :: s.address, name :: s.path, s.leaf⟩

/-- The site is in the value. -/
inductive Value.HasSite : Value → Site → Prop
  | text (s : String) : HasSite (.text s) ⟨[], [], .text s⟩
  | list (items : List String) : HasSite (.list items) ⟨[], [], .list items⟩
  | entry {entries : List (String × Value)} {place : Nat} {name : String} {value : Value}
    {site : Site} (h : entries[place]? = some (name, value)) (inner : HasSite value site) :
    HasSite (.block entries) (site.behind place name)

/-- In source order: where two ways part, the entry that comes first is in front. -/
def Ascending (sites : List Site) : Prop := sites.Pairwise fun s t => s.address < t.address

/-- The path below a key, dotted. -/
def dotted (key : String) (path : List String) : String := path.foldl below key

mutual

/-- The sites of a value, depth first in source order. -/
def Value.sites : Value → List Site
  | .text s        => [⟨[], [], .text s⟩]
  | .list items    => [⟨[], [], .list items⟩]
  | .block entries => sitesFrom 0 entries
  | .number _      => []
  | .bool _        => []

/-- The sites of entries, the first of which stands at this place. -/
def sitesFrom (place : Nat) : List (String × Value) → List Site
  | []                       => []
  | (name, value) :: entries =>
    value.sites.map (Site.behind place name) ++ sitesFrom (place + 1) entries

end

/-! ## Every leaf once, in source order -/

mutual

theorem mem_sites : ∀ {value : Value} {site : Site}, site ∈ value.sites ↔ value.HasSite site
  | .text s, site => by
    rw [Value.sites, List.mem_singleton]
    constructor
    · rintro rfl
      exact .text s
    · rintro ⟨⟩
      rfl
  | .list items, site => by
    rw [Value.sites, List.mem_singleton]
    constructor
    · rintro rfl
      exact .list items
    · rintro ⟨⟩
      rfl
  | .block entries, site => by
    rw [Value.sites, mem_sitesFrom]
    constructor
    · rintro ⟨i, name, value, inner, hentry, hinner, rfl⟩
      rw [Nat.zero_add]
      exact .entry hentry hinner
    · intro h
      cases h with
      | entry hentry hinner => exact ⟨_, _, _, _, hentry, hinner, by rw [Nat.zero_add]⟩
  | .number x, site => by
    rw [Value.sites]
    exact iff_of_false List.not_mem_nil nofun
  | .bool b, site => by
    rw [Value.sites]
    exact iff_of_false List.not_mem_nil nofun

theorem mem_sitesFrom : ∀ {entries : List (String × Value)} {place : Nat} {site : Site},
    site ∈ sitesFrom place entries ↔ ∃ (i : Nat) (name : String) (value : Value) (inner : Site),
      entries[i]? = some (name, value) ∧ value.HasSite inner ∧ site = inner.behind (place + i) name
  | [], place, site => by
    rw [sitesFrom]
    exact iff_of_false List.not_mem_nil nofun
  | (name, value) :: entries, place, site => by
    rw [sitesFrom, List.mem_append, List.mem_map, mem_sitesFrom]
    constructor
    · rintro (⟨inner, hinner, rfl⟩ | ⟨i, name', value', inner, hentry, hinner, rfl⟩)
      · exact ⟨0, name, value, inner, rfl, mem_sites.1 hinner, rfl⟩
      · exact ⟨i + 1, name', value', inner, hentry, hinner, by rw [Nat.add_right_comm]; rfl⟩
    · rintro ⟨i, name', value', inner, hentry, hinner, rfl⟩
      cases i with
      | zero =>
        cases hentry
        exact .inl ⟨inner, mem_sites.2 hinner, rfl⟩
      | succ i =>
        exact .inr ⟨i, name', value', inner, hentry, hinner, by rw [Nat.add_right_comm]; rfl⟩

end

theorem Ascending.behind {sites : List Site} (h : Ascending sites) (place : Nat) (name : String) :
    Ascending (sites.map (Site.behind place name)) := by
  rw [Ascending, List.pairwise_map]
  exact h.imp fun hlt => List.cons_lt_cons_iff.2 (.inr ⟨rfl, hlt⟩)

mutual

theorem ascending_sites : ∀ value : Value, Ascending value.sites
  | .text _ | .list _ => by
    rw [Value.sites]
    exact List.pairwise_singleton _ _
  | .block entries => by
    rw [Value.sites]
    exact ascending_sitesFrom entries 0
  | .number _ | .bool _ => by
    rw [Value.sites]
    exact List.Pairwise.nil

theorem ascending_sitesFrom : ∀ (entries : List (String × Value)) (place : Nat),
    Ascending (sitesFrom place entries)
  | [], _ => by
    rw [sitesFrom]
    exact List.Pairwise.nil
  | (name, value) :: entries, place => by
    rw [sitesFrom, Ascending, List.pairwise_append]
    refine ⟨(ascending_sites value).behind place name, ascending_sitesFrom entries _, ?_⟩
    intro s hs t ht
    obtain ⟨inner, -, rfl⟩ := List.mem_map.1 hs
    obtain ⟨i, name', value', inner', -, -, rfl⟩ := mem_sitesFrom.1 ht
    exact List.cons_lt_cons_iff.2 (.inl (by omega))

end

/-! ## The messages are the sites -/

mutual

theorem filterMap_items (key : String) : ∀ value : Value,
    (value.items key).filterMap message? =
      value.sites.map fun site => (dotted key site.path, site.leaf)
  | .text _ | .list _ | .number _ | .bool _ => by
    rw [Value.items, Value.sites]
    rfl
  | .block entries => by
    rw [Value.items, Value.sites]
    exact filterMap_itemsBelow key entries 0

theorem filterMap_itemsBelow (key : String) : ∀ (entries : List (String × Value)) (place : Nat),
    (itemsBelow key entries).filterMap message? =
      (sitesFrom place entries).map fun site => (dotted key site.path, site.leaf)
  | [], _ => by
    rw [itemsBelow, sitesFrom]
    rfl
  | (name, value) :: entries, place => by
    rw [itemsBelow, sitesFrom, List.filterMap_append, List.map_append, List.map_map,
      filterMap_items (below key name) value, filterMap_itemsBelow key entries (place + 1)]
    rfl

end

/-! ## Keys and paths -/

theorem isKey_of_hasName {value : Value} {name : String} (h : value.HasName name)
    (hnamed : value.isNamed = true) : isKey name.toList = true := by
  induction h with
  | here hmem =>
    rw [Value.isNamed] at hnamed
    exact (areNamed_iff.1 hnamed _ hmem).1
  | inside hmem _ ih =>
    rw [Value.isNamed] at hnamed
    exact ih (areNamed_iff.1 hnamed _ hmem).2

/-- The names on the way to a site are names in the value. -/
theorem hasName_of_hasSite {value : Value} {site : Site} (h : value.HasSite site) :
    ∀ name ∈ site.path, value.HasName name := by
  induction h with
  | text | list => exact List.forall_mem_nil _
  | entry hentry _ ih =>
    have hmem := List.mem_of_getElem? hentry
    exact List.forall_mem_cons.2 ⟨.here hmem, fun name hname => .inside hmem (ih name hname)⟩

/-- No name on the way to a site has a dot. -/
theorem not_mem_path_of_hasSite {value : Value} {site : Site} (h : value.HasSite site)
    (hnamed : value.isNamed = true) : ∀ name ∈ site.path, '.' ∉ name.toList := by
  intro name hname
  have hkey : isKey name.toList = true := isKey_of_hasName (hasName_of_hasSite h name hname) hnamed
  exact (isKey_iff.1 hkey).2

theorem split_dotted {path : List String} (h : ∀ name ∈ path, '.' ∉ name.toList) (key : String) :
    Text.split '.' (dotted key path).toList =
      Text.split '.' key.toList ++ path.map String.toList := by
  induction path generalizing key with
  | nil => rw [List.map_nil, List.append_nil]; rfl
  | cons name path ih =>
    rw [List.forall_mem_cons] at h
    rw [dotted, List.foldl_cons]
    refine (ih h.2 (below key name)).trans ?_
    rw [toList_below, Text.split_append, Text.split_of_not_mem h.1, List.append_assoc]
    rfl

/-- A dotted path can be told from the key by its dots. -/
theorem dotted_inj {path path' : List String} (h : ∀ name ∈ path, '.' ∉ name.toList)
    (h' : ∀ name ∈ path', '.' ∉ name.toList) (key : String) :
    dotted key path = dotted key path' ↔ path = path' := by
  constructor
  · intro heq
    have hsplit := split_dotted h key
    rw [heq, split_dotted h' key] at hsplit
    have hinj : Function.Injective String.toList := fun _ _ => String.toList_inj.1
    exact hinj.list_map (List.append_cancel_left hsplit).symm
  · rintro rfl
    rfl

theorem Tree.filter_of_localeRoot {t : Tree} {root : List (String × Value)}
    (h : t.localeRoot = .ok root) : t.entries.filter isLocale = [(localeName, .block root)] := by
  obtain ⟨name, hroot⟩ := localeRoot_eq_ok.1 h
  have hmem : (name, Value.block root) ∈ t.entries.filter isLocale := by
    rw [hroot]
    exact List.mem_singleton_self _
  have hname : name = localeName := eq_of_beq (List.mem_filter.1 hmem).2
  rw [hroot, hname]

/-- **Keys are paths.**  The names in a file that parses are not empty and have no dots.  Its
messages are the leaves of the `locale` block, each once and in source order, under their dotted
paths, and leaves have the same key exactly if they have the same path. -/
theorem Tree.flatten_of_parse {text : String} {tree : Tree} (h : Tree.parse text = .ok tree) :
    (∀ name, (Value.block tree.entries).HasName name → name ≠ "" ∧ '.' ∉ name.toList) ∧
    ∀ messages, tree.flatten = .ok messages →
      ∃ (root : List (String × Value)) (sites : List Site),
        tree.entries.filter isLocale = [(localeName, .block root)] ∧
        (∀ site, site ∈ sites ↔ (Value.block root).HasSite site) ∧ Ascending sites ∧
        messages = sites.map (fun site => (dotted rootKey site.path, site.leaf)) ∧
        ∀ s ∈ sites, ∀ t ∈ sites,
          dotted rootKey s.path = dotted rootKey t.path ↔ s.path = t.path := by
  have hnamed : (Value.block tree.entries).isNamed = true := by
    rw [Value.isNamed]
    exact isNamed_of_parse h
  refine ⟨fun name hname => ?_, fun messages hmessages => ?_⟩
  · obtain ⟨hne, hdot⟩ := isKey_iff.1 (isKey_of_hasName hname hnamed)
    exact ⟨fun hempty => hne (by rw [hempty]; rfl), hdot⟩
  · obtain ⟨items, hitems, rfl⟩ := except_map_eq_ok.1 hmessages
    obtain ⟨root, hroot, rfl⟩ := except_map_eq_ok.1 hitems
    have hrootNamed : (Value.block root).isNamed = true := by
      rw [Value.isNamed]
      exact areNamed_of_localeRoot (isNamed_of_parse h) hroot
    have hplain : ∀ site ∈ (Value.block root).sites, ∀ name ∈ site.path, '.' ∉ name.toList :=
      fun site hsite => not_mem_path_of_hasSite (mem_sites.1 hsite) hrootNamed
    exact ⟨root, (Value.block root).sites, filter_of_localeRoot hroot, fun _ => mem_sites,
      ascending_sites _, filterMap_items rootKey (.block root),
      fun s hs t ht => dotted_inj (hplain s hs) (hplain t ht) rootKey⟩

/-- Two blocks of one name, with an entry of one name in each: two leaves, and one key. -/
theorem Tree.flatten_of_parse_same_path :
    let text := "locale \x7b a = \"x\" b \x7b a = [\"y\"] \x7d \"b\" \x7b a = \"z\" \x7d \x7d"
    ∃ tree, Tree.parse text = .ok tree ∧
      tree.flatten = .ok [("core.locale.a", .text "x"), ("core.locale.b.a", .list ["y"]),
        ("core.locale.b.a", .text "z")] ∧
      ∃ first second third : Site, Ascending [first, second, third] ∧
        second.path = third.path ∧ first.path ≠ second.path := by
  intro text
  have hwhole : Tree.parse text >>= Tree.flatten = .ok [("core.locale.a", .text "x"),
      ("core.locale.b.a", .list ["y"]), ("core.locale.b.a", .text "z")] := by decide +kernel
  obtain ⟨tree, hparse, hflatten⟩ := except_bind_eq_ok.1 hwhole
  refine ⟨tree, hparse, hflatten, ?_⟩
  obtain ⟨root, sites, -, -, hascending, hmessages, hkeys⟩ :=
    (Tree.flatten_of_parse hparse).2 _ hflatten
  obtain ⟨first, _, rfl, hfirst, hrest⟩ := List.map_eq_cons_iff.1 hmessages.symm
  obtain ⟨second, _, rfl, hsecond, hrest⟩ := List.map_eq_cons_iff.1 hrest
  obtain ⟨third, _, rfl, hthird, hrest⟩ := List.map_eq_cons_iff.1 hrest
  obtain rfl := List.map_eq_nil_iff.1 hrest
  have hfirst : dotted rootKey first.path = "core.locale.a" := congrArg Prod.fst hfirst
  have hsecond : dotted rootKey second.path = "core.locale.b.a" := congrArg Prod.fst hsecond
  have hthird : dotted rootKey third.path = "core.locale.b.a" := congrArg Prod.fst hthird
  refine ⟨first, second, third, hascending, ?_, fun hpath => ?_⟩
  · exact (hkeys second (by simp) third (by simp)).1 (hsecond.trans hthird.symm)
  · have hkey := (hkeys first (by simp) second (by simp)).2 hpath
    rw [hfirst, hsecond] at hkey
    exact absurd hkey (by decide)

end Phrasebook.Resource
