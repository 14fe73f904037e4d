import Mathlib.Data.List.Induction
import Mathlib.Data.List.Nodup
import Mathlib.Data.List.Lemmas

/-!
# Insertion-ordered dictionaries

A dictionary is a list of entries whose keys are pairwise distinct; the
distinctness is a field, so no operation can build a dictionary that holds a key
twice. Assigning to a present key keeps its position and assigning to an absent
key appends, which is the order that iteration observes.

Every later statement about a dictionary is made through `get`. The laws below
say what each operation does to `get` at every key, so no proof about a client
of this module opens the entry list again.
-/

universe u v

/-- Entries in insertion order under pairwise distinct keys. That the keys are distinct is a field,
so a lookup needs no rule about which of two entries counts. -/
structure Dict (κ : Type u) (ν : Type v) where
  entries : List (κ × ν)
  distinct : (entries.map Prod.fst).Nodup

namespace Dict

variable {κ : Type u} {ν : Type v}

/-- Two dictionaries with the same entries in the same order are identical. -/
@[ext] theorem ext (left right : Dict κ ν) (same : left.entries = right.entries) :
    left = right := by
  cases left
  cases right
  cases same
  rfl

instance [DecidableEq κ] [DecidableEq ν] : DecidableEq (Dict κ ν) := fun left right =>
  decidable_of_iff (left.entries = right.entries) ⟨ext left right, congrArg entries⟩

/-- The dictionary without entries. -/
def empty : Dict κ ν := ⟨[], List.nodup_nil⟩

/-- The keys in insertion order. -/
def keys (dict : Dict κ ν) : List κ := dict.entries.map Prod.fst

variable [DecidableEq κ]

/-- Replace the value of a present key where it stands; append an absent one. -/
def assign (key : κ) (value : ν) : List (κ × ν) → List (κ × ν)
  | [] => [(key, value)]
  | (other, present) :: rest =>
    if other = key then (other, value) :: rest else (other, present) :: assign key value rest

/-- Assignment introduces no key besides the assigned one. The induction is on the entries. -/
theorem assign_keys (key : κ) (value : ν) (entries : List (κ × ν)) (tested : κ) :
    tested ∈ (assign key value entries).map Prod.fst ↔
      tested = key ∨ tested ∈ entries.map Prod.fst := by
  induction entries with
  | nil => simp [assign]
  | cons entry rest inductionHypothesis =>
    obtain ⟨other, present⟩ := entry
    by_cases same : other = key
    · subst same
      simp [assign]
    · simp only [assign, same, if_false, List.map_cons, List.mem_cons, inductionHypothesis]
      tauto

/-- Assignment keeps the keys distinct. A key that is there already keeps its place, and a new one
comes at the end. -/
theorem assign_distinct (key : κ) (value : ν) (entries : List (κ × ν))
    (distinct : (entries.map Prod.fst).Nodup) :
    ((assign key value entries).map Prod.fst).Nodup := by
  induction entries with
  | nil => simp [assign]
  | cons entry rest inductionHypothesis =>
    obtain ⟨other, present⟩ := entry
    obtain ⟨absent, restDistinct⟩ := List.nodup_cons.mp distinct
    by_cases same : other = key
    · simpa [assign, same] using distinct
    · simp only [assign, same, if_false, List.map_cons, List.nodup_cons]
      refine ⟨?_, inductionHypothesis restDistinct⟩
      rw [assign_keys]
      exact not_or.mpr ⟨same, absent⟩

/-- The value stored under a key. -/
def get (dict : Dict κ ν) (key : κ) : Option ν := dict.entries.lookup key

/-- Store a value under a key. The proof of distinctness is carried along, and the order is that of
the first assignment to each key. -/
def set (dict : Dict κ ν) (key : κ) (value : ν) : Dict κ ν :=
  ⟨assign key value dict.entries, assign_distinct key value dict.entries dict.distinct⟩

/-- Keep the entries whose key passes the test, in their order. -/
def filterKeys (keep : κ → Bool) (dict : Dict κ ν) : Dict κ ν :=
  ⟨dict.entries.filter (fun entry => keep entry.1),
    dict.distinct.sublist (List.filter_sublist.map Prod.fst)⟩

/-- Remove a key; an absent key is ignored. -/
def erase (dict : Dict κ ν) (key : κ) : Dict κ ν :=
  dict.filterKeys (fun other => decide (other ≠ key))

/-- Assign every listed entry in order, so the last occurrence of a key wins. The entries need not
be those of a dictionary: they may repeat a key. -/
def update (dict : Dict κ ν) (updates : List (κ × ν)) : Dict κ ν :=
  updates.foldl (fun current entry => current.set entry.1 entry.2) dict

/-- The dictionary built by assigning the listed entries in order. -/
def ofList (updates : List (κ × ν)) : Dict κ ν := empty.update updates

/-- Assigning an absent key appends an entry. -/
theorem assign_absent (key : κ) (value : ν) (entries : List (κ × ν))
    (absent : key ∉ entries.map Prod.fst) : assign key value entries = entries ++ [(key, value)] := by
  induction entries with
  | nil => rfl
  | cons entry rest inductionHypothesis =>
    obtain ⟨other, present⟩ := entry
    simp only [List.map_cons, List.mem_cons, not_or] at absent
    rw [assign, if_neg (Ne.symm absent.1), inductionHypothesis absent.2, List.cons_append]

/-- Assigning entries under new and distinct keys appends them. The induction is on the updates,
with any dictionary to begin with. -/
theorem update_entries (dict : Dict κ ν) (updates : List (κ × ν))
    (distinct : ((dict.entries ++ updates).map Prod.fst).Nodup) :
    (dict.update updates).entries = dict.entries ++ updates := by
  induction updates generalizing dict with
  | nil => rw [List.append_nil]; rfl
  | cons entry rest inductionHypothesis =>
    have appended : (dict.set entry.1 entry.2).entries = dict.entries ++ [entry] := by
      apply assign_absent
      rw [List.map_append, List.map_cons, List.nodup_middle, List.nodup_cons] at distinct
      exact fun member => distinct.1 (List.mem_append_left _ member)
    have later := inductionHypothesis (dict.set entry.1 entry.2)
      (by rwa [appended, List.append_assoc, List.singleton_append])
    rw [appended, List.append_assoc, List.singleton_append] at later
    exact later

/-- A dictionary is built by its own entries. -/
theorem ofList_entries (dict : Dict κ ν) : ofList dict.entries = dict :=
  ext _ _ (update_entries empty dict.entries dict.distinct)

/-- Nothing is stored in the empty dictionary. -/
@[simp] theorem get_empty (key : κ) : (empty : Dict κ ν).get key = none := rfl

/-- The first entry answers for its own key, the rest for every other key. -/
theorem lookup_cons_ite (other tested : κ) (present : ν) (rest : List (κ × ν)) :
    ((other, present) :: rest).lookup tested =
      if tested = other then some present else rest.lookup tested := by
  by_cases hit : tested = other
  · simp [hit]
  · have test : (tested == other) = false := beq_eq_false_iff_ne.mpr hit
    simp only [List.lookup_cons, test, hit, if_false]

/-- The first entry of a dictionary answers for its own key, the others for the rest. -/
theorem get_cons (other key : κ) (present : ν) (rest : List (κ × ν))
    (distinct : (((other, present) :: rest).map Prod.fst).Nodup) :
    (⟨(other, present) :: rest, distinct⟩ : Dict κ ν).get key =
      if key = other then some present
      else (⟨rest, (List.nodup_cons.mp distinct).2⟩ : Dict κ ν).get key :=
  lookup_cons_ite other key present rest

/-- Lookup after assignment, over raw entry lists.

Proof: by induction on the entries, at whose first key both operations stop or go on. -/
theorem lookup_assign (key tested : κ) (value : ν) (entries : List (κ × ν)) :
    (assign key value entries).lookup tested =
      if tested = key then some value else entries.lookup tested := by
  induction entries with
  | nil => simp only [assign, lookup_cons_ite, List.lookup_nil]
  | cons entry rest inductionHypothesis =>
    obtain ⟨other, present⟩ := entry
    by_cases same : other = key
    · subst same
      by_cases hit : tested = other <;> simp [assign, lookup_cons_ite, hit]
    · by_cases hit : tested = other
      · subst hit
        simp [assign, same]
      · simp [assign, same, lookup_cons_ite, hit, inductionHypothesis]

/-- Assignment changes exactly the assigned key. This is the law that the results about sessions and
downloads rest on: what is stored under one key says nothing about the others. -/
theorem get_set (dict : Dict κ ν) (key tested : κ) (value : ν) :
    (dict.set key value).get tested = if tested = key then some value else dict.get tested :=
  lookup_assign key tested value dict.entries

/-- An assigned key has its value. -/
@[simp] theorem get_set_self (dict : Dict κ ν) (key : κ) (value : ν) :
    (dict.set key value).get key = some value := by simp [get_set]

/-- Every other key has the value that it had. -/
@[simp] theorem get_set_other (dict : Dict κ ν) (key tested : κ) (value : ν)
    (other : tested ≠ key) : (dict.set key value).get tested = dict.get tested := by
  simp [get_set, other]

/-- Lookup in a filtered entry list. The induction is on the entries. The test looks at keys only,
so an entry that is dropped is one under a key that fails it. -/
theorem lookup_filter (keep : κ → Bool) (tested : κ) (entries : List (κ × ν)) :
    (entries.filter (fun entry => keep entry.1)).lookup tested =
      if keep tested then entries.lookup tested else none := by
  induction entries with
  | nil => simp
  | cons entry rest inductionHypothesis =>
    obtain ⟨other, present⟩ := entry
    cases kept : keep other with
    | true =>
      simp only [List.filter_cons, kept, if_true]
      by_cases hit : tested = other
      · subst hit
        simp [kept]
      · simp only [lookup_cons_ite, hit, if_false, inductionHypothesis]
    | false =>
      simp only [List.filter_cons, kept, Bool.false_eq_true, if_false, inductionHypothesis]
      by_cases hit : tested = other
      · subst hit
        simp [kept]
      · simp only [lookup_cons_ite, hit, if_false]

/-- A filter answers for the kept keys only. -/
theorem get_filterKeys (dict : Dict κ ν) (keep : κ → Bool) (tested : κ) :
    (dict.filterKeys keep).get tested = if keep tested then dict.get tested else none :=
  lookup_filter keep tested dict.entries

/-- Removal forgets exactly the removed key. -/
theorem get_erase (dict : Dict κ ν) (key tested : κ) :
    (dict.erase key).get tested = if tested = key then none else dict.get tested := by
  simp only [erase, get_filterKeys, decide_eq_true_eq]
  by_cases same : tested = key <;> simp [same]

/-- A removed key has no value. -/
@[simp] theorem get_erase_self (dict : Dict κ ν) (key : κ) : (dict.erase key).get key = none := by
  simp [get_erase]

/-- Every other key keeps its value. -/
@[simp] theorem get_erase_other (dict : Dict κ ν) (key tested : κ) (other : tested ≠ key) :
    (dict.erase key).get tested = dict.get tested := by
  simp [get_erase, other]

/-- Assignment to a kept key commutes with the filter; the filter forgets any other. So a filtered
dictionary can be followed through a run without the entries that it hides. -/
theorem filter_assign (keep : κ → Bool) (key : κ) (value : ν) (entries : List (κ × ν)) :
    (assign key value entries).filter (fun entry => keep entry.1) =
      if keep key then assign key value (entries.filter (fun entry => keep entry.1))
      else entries.filter (fun entry => keep entry.1) := by
  induction entries with
  | nil => cases kept : keep key <;> simp [assign, kept]
  | cons entry rest inductionHypothesis =>
    obtain ⟨other, present⟩ := entry
    by_cases same : other = key
    · subst same
      cases kept : keep other <;> simp [assign, kept]
    · cases kept : keep other <;> cases assigned : keep key <;>
        simp_all [assign]

/-- Storing under a kept key is seen in the filtered dictionary, storing under another
key is not. -/
theorem filterKeys_set (dict : Dict κ ν) (keep : κ → Bool) (key : κ) (value : ν) :
    (dict.set key value).filterKeys keep =
      if keep key then (dict.filterKeys keep).set key value else dict.filterKeys keep := by
  have entries := filter_assign keep key value dict.entries
  apply ext
  cases kept : keep key with
  | true =>
    rw [kept, if_pos rfl] at entries
    exact entries
  | false =>
    rw [kept, if_neg Bool.false_ne_true] at entries
    exact entries

/-- Two lists of updates are assigned one after the other. -/
theorem update_append (dict : Dict κ ν) (first second : List (κ × ν)) :
    dict.update (first ++ second) = (dict.update first).update second :=
  List.foldl_append

/-- After an update a key has the value that the updates alone give it, or the one from before. The
values before do not matter for a key that is assigned at all.

Proof: by induction on the updates from their end, as the last one counts. -/
theorem get_update (dict : Dict κ ν) (updates : List (κ × ν)) (key : κ) :
    (dict.update updates).get key = ((ofList updates).get key).or (dict.get key) := by
  induction updates using List.reverseRecOn with
  | nil => rfl
  | append_singleton updates last inductionHypothesis =>
    have assigned : ∀ start : Dict κ ν, start.update (updates ++ [last]) =
        (start.update updates).set last.1 last.2 := fun start => update_append start _ _
    rw [ofList, assigned, assigned, get_set, get_set]
    by_cases same : key = last.1
    · simp [same]
    · rw [if_neg same, if_neg same, inductionHypothesis, ofList]

/-- Of two lists of entries the second one decides about its own keys. -/
theorem get_ofList_append (first second : List (κ × ν)) (key : κ) :
    (ofList (first ++ second)).get key =
      ((ofList second).get key).or ((ofList first).get key) := by
  rw [ofList, update_append, get_update, ofList, ofList]

/-- The first of the listed entries answers for its key when no later one does. -/
theorem get_ofList_cons (entry : κ × ν) (rest : List (κ × ν)) (key : κ) :
    (ofList (entry :: rest)).get key =
      ((ofList rest).get key).or (if key = entry.1 then some entry.2 else none) := by
  have first : (ofList [entry]).get key = if key = entry.1 then some entry.2 else none := by
    rw [← get_empty key, ← get_set]
    rfl
  rw [← List.singleton_append, get_ofList_append, first]

/-- Of several entries with one key the last one counts. The induction is on the list from its end,
where the last assignment is. -/
theorem get_ofList_last (entries : List (κ × ν)) (key : κ) :
    (ofList entries).get key =
      (entries.reverse.find? (fun entry => decide (entry.1 = key))).map Prod.snd := by
  induction entries using List.reverseRecOn with
  | nil => rfl
  | append_singleton entries last inductionHypothesis =>
    have assigned : ofList (entries ++ [last]) = (ofList entries).set last.1 last.2 :=
      update_append empty entries [last]
    rw [assigned, get_set, inductionHypothesis, List.reverse_append, List.reverse_singleton,
      List.singleton_append, List.find?_cons]
    by_cases same : key = last.1
    · simp [same]
    · simp [same, Ne.symm same]

/-- An update keeps every key that is present. -/
theorem update_present (dict : Dict κ ν) (updates : List (κ × ν)) (key : κ)
    (present : dict.get key ≠ none) : (dict.update updates).get key ≠ none := by
  induction updates generalizing dict with
  | nil => exact present
  | cons entry rest inductionHypothesis =>
    apply inductionHypothesis
    rw [get_set]
    split
    · exact Option.some_ne_none _
    · exact present

/-- After an update a value is that of an update or the one from before. The converse does not hold,
as a later update may replace an earlier one. -/
theorem get_update_some (dict : Dict κ ν) (updates : List (κ × ν)) (key : κ) (value : ν)
    (found : (dict.update updates).get key = some value) :
    (key, value) ∈ updates ∨ dict.get key = some value := by
  induction updates generalizing dict with
  | nil => exact .inr found
  | cons entry rest inductionHypothesis =>
    rcases inductionHypothesis (dict.set entry.1 entry.2) found with later | here
    · exact .inl (List.mem_cons_of_mem _ later)
    · rw [get_set] at here
      split at here
      · rename_i same
        cases here
        exact .inl (same ▸ List.mem_cons_self)
      · exact .inr here

/-- After an update a key that it assigns holds the value of one of its assignments.

Proof: by induction on the updates, for any dictionary before them. -/
theorem get_update_last (dict : Dict κ ν) (updates : List (κ × ν)) (key : κ) (value : ν)
    (member : (key, value) ∈ updates) :
    ∃ last, (key, last) ∈ updates ∧ (dict.update updates).get key = some last := by
  induction updates generalizing dict value with
  | nil => cases member
  | cons entry rest inductionHypothesis =>
    by_cases later : ∃ other, (key, other) ∈ rest
    · obtain ⟨other, inside⟩ := later
      obtain ⟨last, found, same⟩ := inductionHypothesis (dict.set entry.1 entry.2) other inside
      exact ⟨last, List.mem_cons_of_mem _ found, same⟩
    · obtain rfl : (key, value) = entry :=
        (List.mem_cons.mp member).resolve_right fun inside => later ⟨value, inside⟩
      have present := update_present (dict.set key value) rest key (by simp)
      obtain ⟨last, found⟩ := Option.ne_none_iff_exists'.mp present
      refine ⟨last, ?_, found⟩
      rcases get_update_some _ _ _ _ found with inside | here
      · exact absurd ⟨last, inside⟩ later
      · rw [get_set_self] at here
        cases here
        exact member

/-- Equality as Python compares dictionaries: every key has the same value on both sides, in
whatever order the entries were inserted. The equality of Lean is finer, since it sees the order. -/
def agree [DecidableEq ν] (left right : Dict κ ν) : Bool :=
  left.entries.all (fun entry => decide (right.get entry.1 = some entry.2)) &&
    right.entries.all (fun entry => decide (left.get entry.1 = some entry.2))

/-- A key is listed exactly when it has a value. The keys are those of the entries, in their
order. -/
theorem mem_keys (dict : Dict κ ν) (key : κ) : key ∈ dict.keys ↔ dict.get key ≠ none := by
  constructor
  · intro member absent
    obtain ⟨entry, present, rfl⟩ := List.mem_map.mp member
    exact absurd (List.lookup_eq_none_iff.mp absent entry present) (by simp)
  · intro stored
    by_contra missing
    refine stored (List.lookup_eq_none_iff.mpr ?_)
    intro entry present
    have different : key ≠ entry.1 := fun same =>
      missing (List.mem_map.mpr ⟨entry, present, same.symm⟩)
    simpa using different

/-- A value is stored under a key exactly when the pair is one of the entries. Keys occur once among
the entries, and this is what lets the first entry under a key be the only one. -/
theorem mem_entries (dict : Dict κ ν) (key : κ) (value : ν) :
    (key, value) ∈ dict.entries ↔ dict.get key = some value := by
  obtain ⟨entries, distinct⟩ := dict
  induction entries with
  | nil => simp [get]
  | cons entry rest inductionHypothesis =>
    obtain ⟨other, present⟩ := entry
    obtain ⟨absent, restDistinct⟩ := List.nodup_cons.mp distinct
    rw [List.mem_cons, inductionHypothesis restDistinct, get_cons]
    by_cases same : key = other
    · subst same
      have later : (⟨rest, restDistinct⟩ : Dict κ ν).get key = none := by
        by_contra stored
        exact absent ((mem_keys _ _).mpr stored)
      simp [later, eq_comm]
    · simp [same]

/-- A dictionary has a value for exactly the listed keys. Which of several values it is does not
matter here. -/
theorem get_ofList_ne_none (entries : List (κ × ν)) (key : κ) :
    (ofList entries).get key ≠ none ↔ key ∈ entries.map Prod.fst := by
  constructor
  · intro stored
    obtain ⟨value, found⟩ := Option.ne_none_iff_exists'.mp stored
    rcases get_update_some _ _ _ _ found with member | before
    · exact List.mem_map.mpr ⟨(key, value), member, rfl⟩
    · cases before
  · intro member
    obtain ⟨entry, inside, rfl⟩ := List.mem_map.mp member
    obtain ⟨last, _, found⟩ := get_update_last empty entries entry.1 entry.2 inside
    rw [ofList, found]
    exact Option.some_ne_none last

/-- A dictionary of listed entries is empty only if nothing is listed. -/
theorem ofList_eq_nil (entries : List (κ × ν)) : (ofList entries).entries = [] ↔ entries = [] := by
  constructor
  · intro nothing
    by_contra present
    obtain ⟨entry, member⟩ := List.exists_mem_of_ne_nil _ present
    have stored := (get_ofList_ne_none entries entry.1).mpr (List.mem_map_of_mem member)
    exact stored (by rw [get, nothing, List.lookup_nil])
  · rintro rfl
    rfl

/-- The keys of two dictionaries are equally many when one's are the images of those of the other's
entries that pass a test. The image has to be injective, so that no two entries share a key; the
number of attached sessions of an artifact is counted with this. -/
theorem length_keys_eq {μ : Type*} {σ : Type*} [DecidableEq σ] (left : Dict κ ν)
    (right : Dict σ μ) (test : σ × μ → Bool) (image : σ → κ) (injective : Function.Injective image)
    (same : ∀ key, left.get key ≠ none ↔
      ∃ other value, right.get other = some value ∧ test (other, value) ∧ image other = key) :
    left.entries.length = (right.entries.filter test).length := by
  have chosen : ((right.entries.filter test).map (fun entry => image entry.1)).Nodup := by
    have kept : ((right.entries.filter test).map Prod.fst).Nodup :=
      right.distinct.sublist (List.filter_sublist.map Prod.fst)
    have images := kept.map injective
    rwa [List.map_map] at images
  have permuted : left.keys.Perm ((right.entries.filter test).map (fun entry => image entry.1)) := by
    refine (List.perm_ext_iff_of_nodup left.distinct chosen).mpr fun key => ?_
    rw [← keys, mem_keys, same]
    simp only [List.mem_map, List.mem_filter, Prod.exists]
    constructor
    · rintro ⟨other, value, stored, passes, shown⟩
      exact ⟨other, value, ⟨(mem_entries right other value).mpr stored, passes⟩, shown⟩
    · rintro ⟨other, value, ⟨stored, passes⟩, shown⟩
      exact ⟨other, value, (mem_entries right other value).mp stored, passes, shown⟩
  have lengths := permuted.length_eq
  rwa [keys, List.length_map, List.length_map] at lengths

end Dict
