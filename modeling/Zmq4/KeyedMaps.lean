import Mathlib.Data.List.AList
import Mathlib.Data.List.Dedup

namespace Zmq4.KeyedMaps

variable {α β γ : Type}

abbrev KeyedMap (α β : Type) := AList fun _ : α => β

def retain (keep : α → β → Bool) (m : KeyedMap α β) : KeyedMap α β where
  entries := m.entries.filter fun entry => keep entry.1 entry.2
  nodupKeys := m.nodupKeys.sublist List.filter_sublist

def mapValues (f : α → β → γ) (m : KeyedMap α β) : KeyedMap α γ where
  entries := m.entries.map fun entry => ⟨entry.1, f entry.1 entry.2⟩
  nodupKeys := by
    have hkeys : m.entries.keys.Nodup := m.nodupKeys
    rw [List.NodupKeys, List.keys, List.map_map]
    exact hkeys

def pairs (m : KeyedMap α β) : List (α × β) :=
  m.entries.map fun entry => (entry.1, entry.2)

theorem pairs_nodup (m : KeyedMap α β) : (pairs m).Nodup := by
  apply List.Nodup.of_map Prod.fst
  rw [pairs, List.map_map]
  exact m.nodupKeys

variable [DecidableEq α]

/-- The entries in the order of the hint; those that it leaves out come last. -/
def ranged (hint : List α) (m : KeyedMap α β) : List (α × β) :=
  (hint.dedup.filterMap fun key => (m.lookup key).map fun value => (key, value)) ++
    (m.entries.filter fun entry => entry.1 ∉ hint).map fun entry => (entry.1, entry.2)

variable {m : KeyedMap α β} {key : α} {value : β}

theorem lookup_eq_some_iff_mem :
    m.lookup key = some value ↔ (⟨key, value⟩ : Σ _ : α, β) ∈ m.entries :=
  AList.mem_lookup_iff

theorem lookup_retain_eq_some_iff {keep : α → β → Bool} :
    (retain keep m).lookup key = some value ↔
      m.lookup key = some value ∧ keep key value = true := by
  rw [lookup_eq_some_iff_mem, lookup_eq_some_iff_mem]
  exact List.mem_filter

theorem lookup_mapValues (f : α → β → γ) (m : KeyedMap α β) (key : α) :
    (mapValues f m).lookup key = (m.lookup key).map (f key) := by
  apply Option.ext
  intro value
  rw [Option.map_eq_some_iff, lookup_eq_some_iff_mem]
  constructor
  · intro hmem
    obtain ⟨⟨key', before⟩, hentry, heq⟩ := List.mem_map.mp hmem
    cases heq
    exact ⟨before, lookup_eq_some_iff_mem.mpr hentry, rfl⟩
  · rintro ⟨before, hbefore, rfl⟩
    exact List.mem_map.mpr ⟨_, lookup_eq_some_iff_mem.mp hbefore, rfl⟩

theorem lookup_of_retain_mapValues {keep : α → γ → Bool} {f : α → β → γ} {after : γ}
    (hlookup : (retain keep (mapValues f m)).lookup key = some after) :
    ∃ before, m.lookup key = some before ∧ f key before = after := by
  rw [lookup_retain_eq_some_iff, lookup_mapValues, Option.map_eq_some_iff] at hlookup
  exact hlookup.1

theorem mem_mapValues_iff {f : α → β → γ} : key ∈ mapValues f m ↔ key ∈ m := by
  rw [← AList.lookup_isSome, ← AList.lookup_isSome, lookup_mapValues, Option.isSome_map]

theorem lookup_insert_eq (m : KeyedMap α β) (key other : α) (value : β) :
    (m.insert key value).lookup other = if other = key then some value else m.lookup other := by
  split
  · next heq => rw [heq, AList.lookup_insert]
  · next hne => exact AList.lookup_insert_ne hne

theorem exists_of_insert {P : β → Prop}
    (hinsert : ∃ other found, (m.insert key value).lookup other = some found ∧ P found) :
    P value ∨ ∃ other found, m.lookup other = some found ∧ P found := by
  obtain ⟨other, found, hlookup, hfound⟩ := hinsert
  rw [lookup_insert_eq] at hlookup
  split at hlookup
  · cases hlookup
    exact Or.inl hfound
  · exact Or.inr ⟨other, found, hlookup, hfound⟩

theorem lookup_erase_eq (m : KeyedMap α β) (key other : α) :
    (m.erase key).lookup other = if other = key then none else m.lookup other := by
  split
  · next heq => rw [heq, AList.lookup_erase]
  · next hne => exact AList.lookup_erase_ne hne

theorem mem_ranged_iff {hint : List α} :
    (key, value) ∈ ranged hint m ↔ m.lookup key = some value := by
  rw [ranged, List.mem_append, List.mem_filterMap, List.mem_map, lookup_eq_some_iff_mem]
  constructor
  · rintro (⟨hinted, -, hvalue⟩ | ⟨entry, hentry, heq⟩)
    · obtain ⟨found, hfound, heq⟩ := Option.map_eq_some_iff.mp hvalue
      cases heq
      exact lookup_eq_some_iff_mem.mp hfound
    · cases heq
      exact (List.mem_filter.mp hentry).1
  · intro hentry
    by_cases hhint : key ∈ hint
    · refine Or.inl ⟨key, List.mem_dedup.mpr hhint, ?_⟩
      rw [lookup_eq_some_iff_mem.mpr hentry]
      rfl
    · exact Or.inr ⟨⟨key, value⟩, List.mem_filter.mpr ⟨hentry, decide_eq_true hhint⟩, rfl⟩

theorem mem_pairs_iff : (key, value) ∈ pairs m ↔ m.lookup key = some value := by
  rw [lookup_eq_some_iff_mem, pairs, List.mem_map]
  constructor
  · rintro ⟨entry, hentry, heq⟩
    cases heq
    exact hentry
  · intro hentry
    exact ⟨_, hentry, rfl⟩

theorem ranged_nodup (hint : List α) (m : KeyedMap α β) : (ranged hint m).Nodup := by
  apply List.Nodup.append
  · refine hint.nodup_dedup.filterMap ?_
    intro key key' entry hkey hkey'
    obtain ⟨_, -, rfl⟩ := Option.map_eq_some_iff.mp hkey
    obtain ⟨_, -, heq⟩ := Option.map_eq_some_iff.mp hkey'
    exact (congrArg Prod.fst heq).symm
  · exact (pairs_nodup m).sublist (List.filter_sublist.map _)
  · rintro ⟨key, value⟩ hhinted hrest
    obtain ⟨key', hkey', hvalue⟩ := List.mem_filterMap.mp hhinted
    obtain ⟨_, -, heq⟩ := Option.map_eq_some_iff.mp hvalue
    obtain ⟨entry, hentry, heq'⟩ := List.mem_map.mp hrest
    have hkey : entry.1 = key' := (congrArg Prod.fst (heq'.trans heq.symm))
    have hnot : entry.1 ∉ hint := of_decide_eq_true (List.mem_filter.mp hentry).2
    exact hnot (hkey ▸ List.mem_dedup.mp hkey')

theorem ranged_perm (hint : List α) (m : KeyedMap α β) : (ranged hint m).Perm (pairs m) := by
  rw [List.perm_ext_iff_of_nodup (ranged_nodup hint m) (pairs_nodup m)]
  rintro ⟨key, value⟩
  rw [mem_ranged_iff, mem_pairs_iff]

theorem pairs_split (hint : List α) (m : KeyedMap α β) (take : α → β → Bool) :
    (((ranged hint m).filter fun entry => take entry.1 entry.2) ++
      pairs (retain (fun key value => !take key value) m)).Perm (pairs m) := by
  have htaken := (ranged_perm hint m).filter fun entry => take entry.1 entry.2
  have hleft : pairs (retain (fun key value => !take key value) m) =
      (pairs m).filter fun entry => !take entry.1 entry.2 := by
    rw [pairs, pairs, List.filter_map]
    rfl
  rw [hleft]
  exact (htaken.append_right _).trans (List.filter_append_perm _ _)

theorem pairs_insert (m : KeyedMap α β) (key : α) (value : β) :
    pairs (m.insert key value) = (key, value) :: pairs (m.erase key) :=
  rfl

theorem pairs_erase_sublist (m : KeyedMap α β) (key : α) :
    (pairs (m.erase key)).Sublist (pairs m) :=
  (List.kerase_sublist key m.entries).map _

theorem pairs_erase (hvalue : m.lookup key = some value) :
    ((key, value) :: pairs (m.erase key)).Perm (pairs m) := by
  have hkey : key ∈ m := AList.lookup_isSome.mp (Option.isSome_of_eq_some hvalue)
  obtain ⟨value', before, after, -, hentries, herase⟩ := List.exists_of_kerase hkey
  have hmem : (⟨key, value'⟩ : Σ _ : α, β) ∈ m.entries := by
    rw [hentries]
    exact List.mem_append_right _ List.mem_cons_self
  have hsame := (lookup_eq_some_iff_mem.mpr hmem).symm.trans hvalue
  obtain rfl : value' = value := Option.some.inj hsame
  have hpairs : pairs m = (before ++ ⟨key, value'⟩ :: after).map fun entry => (entry.1, entry.2) :=
    congrArg (List.map _) hentries
  have hpairs' : pairs (m.erase key) = (before ++ after).map fun entry => (entry.1, entry.2) :=
    congrArg (List.map _) herase
  rw [hpairs, hpairs', List.map_append, List.map_append, List.map_cons]
  exact List.perm_middle.symm

end Zmq4.KeyedMaps
