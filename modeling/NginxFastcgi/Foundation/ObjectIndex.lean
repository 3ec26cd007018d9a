import Mathlib.Data.List.AList
import Mathlib.Logic.Function.Basic

/-!
# Objects indexed by a key

Objects have identities and keys, and some of them are listed.  An index maps
the keys of the listed objects to their identities.  The lemmas say which
changes of one object, made together with which change of the index, keep the
two in step.
-/

namespace Foundation.ObjectIndex

universe u v w

variable {κ : Type u} {ι : Type v} {β : Type w}

section Lookup

variable [DecidableEq κ]

/-- Looking up after an insertion. -/
theorem lookup_insert_eq_update (map : AList fun _ : κ => β) (key : κ) (value : β) :
    (fun other => (map.insert key value).lookup other) =
      Function.update (fun other => map.lookup other) key (some value) := by
  funext other
  by_cases same : other = key
  · rw [same, AList.lookup_insert, Function.update_self]
  · rw [AList.lookup_insert_ne same, Function.update_of_ne same]

/-- Inserting what is there already. -/
theorem lookup_insert_of_lookup {map : AList fun _ : κ => β} {key : κ} {value : β}
    (found : map.lookup key = some value) :
    (fun other => (map.insert key value).lookup other) = fun other => map.lookup other := by
  rw [lookup_insert_eq_update, ← found]
  exact Function.update_eq_self key _

/-- Looking up after a removal. -/
theorem lookup_erase_eq_update (map : AList fun _ : κ => β) (key : κ) :
    (fun other => (map.erase key).lookup other) =
      Function.update (fun other => map.lookup other) key none := by
  funext other
  by_cases same : other = key
  · rw [same, AList.lookup_erase, Function.update_self]
  · rw [AList.lookup_erase_ne same, Function.update_of_ne same]

end Lookup

/-- The entries are the listed objects, under their keys. -/
def Indexes (index : κ → Option ι) (objects : ι → Option β) (key : β → κ) (listed : β → Prop) :
    Prop :=
  ∀ k id, index k = some id ↔ ∃ object, objects id = some object ∧ key object = k ∧ listed object

def DistinctKeys (objects : ι → Option β) (key : β → κ) : Prop :=
  ∀ id other first second, objects id = some first → objects other = some second →
    key first = key second → id = other

variable {index : κ → Option ι} {objects : ι → Option β} {key : β → κ} {listed : β → Prop}
variable {id : ι} {object : β}

theorem indexes_empty : Indexes (fun _ : κ => none) (fun _ : ι => none) key listed := by
  intro k id
  refine iff_of_false nofun ?_
  rintro ⟨object, found, -⟩
  contradiction

theorem Indexes.entry (indexes : Indexes index objects key listed)
    (found : objects id = some object) (isListed : listed object) :
    index (key object) = some id :=
  (indexes (key object) id).mpr ⟨object, found, rfl, isListed⟩

/-- Listed objects with one key are one object. -/
theorem Indexes.distinct (indexes : Indexes index objects key listed)
    (all : ∀ object, listed object) : DistinctKeys objects key := by
  intro id other first second foundFirst foundSecond sameKey
  have firstEntry := indexes.entry foundFirst (all first)
  rw [sameKey, indexes.entry foundSecond (all second)] at firstEntry
  exact (Option.some.inj firstEntry).symm

variable [DecidableEq ι]

namespace DistinctKeys

theorem remove (distinct : DistinctKeys objects key) (id : ι) :
    DistinctKeys (Function.update objects id none) key := by
  intro first second firstObject secondObject firstEq secondEq
  rw [Function.update_apply] at firstEq secondEq
  split at firstEq
  · contradiction
  · split at secondEq
    · contradiction
    · exact distinct first second firstObject secondObject firstEq secondEq

/-- An object may be added, or replaced, under a key that no other one has. -/
theorem insert (distinct : DistinctKeys objects key)
    (unused : ∀ other second, objects other = some second → key second = key object →
      other = id) :
    DistinctKeys (Function.update objects id (some object)) key := by
  intro first second firstObject secondObject firstEq secondEq keyEq
  rw [Function.update_apply] at firstEq secondEq
  split at firstEq
  · rename_i isFirst
    cases firstEq
    split at secondEq
    · rename_i isSecond
      rw [isFirst, isSecond]
    · rw [isFirst, unused second secondObject secondEq keyEq.symm]
  · split at secondEq
    · rename_i isSecond
      cases secondEq
      rw [isSecond, unused first firstObject firstEq keyEq]
    · exact distinct first second firstObject secondObject firstEq secondEq keyEq

/-- Changing an object and not its key. -/
theorem replace (distinct : DistinctKeys objects key) (found : objects id = some object)
    {after : β} (sameKey : key after = key object) :
    DistinctKeys (Function.update objects id (some after)) key := by
  apply distinct.insert
  intro other second otherEq keyEq
  exact distinct other id second object otherEq found (keyEq.trans sameKey)

end DistinctKeys

namespace Indexes

/-- An object that is not listed may be added, changed or removed. -/
theorem replace_unlisted (indexes : Indexes index objects key listed) {after : Option β}
    (unlistedBefore : ∀ object, objects id = some object → ¬ listed object)
    (unlistedAfter : ∀ object, after = some object → ¬ listed object) :
    Indexes index (Function.update objects id after) key listed := by
  intro k other
  rw [indexes k other, Function.update_apply]
  split
  · rename_i same
    rw [same]
    constructor
    · rintro ⟨object, found, -, isListed⟩
      exact absurd isListed (unlistedBefore object found)
    · rintro ⟨object, found, -, isListed⟩
      exact absurd isListed (unlistedAfter object found)
  · rfl

/-- Without its entry erased, a listed object must not be removed. -/
theorem not_remove (indexes : Indexes index objects key listed) (found : objects id = some object)
    (isListed : listed object) :
    ¬ Indexes index (Function.update objects id none) key listed := by
  intro still
  obtain ⟨object', removed, -⟩ := (still (key object) id).mp (indexes.entry found isListed)
  rw [Function.update_self] at removed
  contradiction

variable [DecidableEq κ]

/-- An object is listed as its entry is set, where it had no other entry and no
other object had this one. -/
theorem insert_listed (indexes : Indexes index objects key listed) {after : β}
    (own : ∀ before, objects id = some before → listed before → key before = key after)
    (others : ∀ other second, objects other = some second → listed second →
      key second = key after → other = id)
    (isListed : listed after) :
    Indexes (Function.update index (key after) (some id))
      (Function.update objects id (some after)) key listed := by
  intro k other
  rw [Function.update_apply, Function.update_apply]
  by_cases same : other = id
  · subst same
    simp only [if_true, Option.some.injEq, exists_eq_left', isListed, and_true]
    by_cases atKey : k = key after
    · simp only [atKey, if_true]
    · simp only [if_neg atKey, Ne.symm atKey, iff_false]
      intro entryEq
      obtain ⟨before, found, keyEq, wasListed⟩ := (indexes k other).mp entryEq
      exact atKey (keyEq.symm.trans (own before found wasListed))
  · rw [if_neg same]
    by_cases atKey : k = key after
    · simp only [if_pos atKey, Option.some.injEq, Ne.symm same, false_iff]
      rintro ⟨second, found, keyEq, secondListed⟩
      exact same (others other second found secondListed (keyEq.trans atKey))
    · rw [if_neg atKey]
      exact indexes k other

/-- An object is listed, or listed again, as its entry is set. -/
theorem enlist (indexes : Indexes index objects key listed) (distinct : DistinctKeys objects key)
    (found : objects id = some object) {after : β} (sameKey : key after = key object)
    (isListed : listed after) :
    Indexes (Function.update index (key object) (some id))
      (Function.update objects id (some after)) key listed := by
  rw [← sameKey]
  refine indexes.insert_listed ?_ ?_ isListed
  · intro before foundAgain _
    cases found.symm.trans foundAgain
    exact sameKey.symm
  · intro other second foundOther _ keyEq
    exact distinct other id second object foundOther found (keyEq.trans sameKey)

/-- A new object is listed under a key that no entry has. -/
theorem insert_new (indexes : Indexes index objects key listed) (absent : objects id = none)
    (unused : index (key object) = none) (isListed : listed object) :
    Indexes (Function.update index (key object) (some id))
      (Function.update objects id (some object)) key listed := by
  refine indexes.insert_listed ?_ ?_ isListed
  · intro before found _
    rw [absent] at found
    contradiction
  · intro other second found secondListed keyEq
    have entryEq := indexes.entry found secondListed
    rw [keyEq, unused] at entryEq
    contradiction

/-- A listed object changes, and neither its key nor that it is listed. -/
theorem replace_listed (indexes : Indexes index objects key listed)
    (distinct : DistinctKeys objects key) (found : objects id = some object)
    (wasListed : listed object) {after : β} (sameKey : key after = key object)
    (isListed : listed after) :
    Indexes index (Function.update objects id (some after)) key listed := by
  have enlisted := indexes.enlist distinct found sameKey isListed
  rwa [← indexes.entry found wasListed, Function.update_eq_self] at enlisted

/-- The entry of an object is erased as the object ceases to be listed, or to
be. -/
theorem withdraw (indexes : Indexes index objects key listed)
    (distinct : DistinctKeys objects key) (found : objects id = some object) {after : Option β}
    (unlisted : ∀ object, after = some object → ¬ listed object) :
    Indexes (Function.update index (key object) none) (Function.update objects id after) key
      listed := by
  intro k other
  rw [Function.update_apply, Function.update_apply]
  by_cases same : other = id
  · subst same
    simp only [if_true]
    refine iff_of_false ?_ ?_
    · split
      · nofun
      · rename_i otherKey
        intro entryEq
        obtain ⟨object', foundAgain, keyEq, -⟩ := (indexes k other).mp entryEq
        rw [found] at foundAgain
        cases foundAgain
        exact otherKey keyEq.symm
    · rintro ⟨object', isAfter, -, isListed⟩
      exact unlisted object' isAfter isListed
  · rw [if_neg same]
    by_cases atKey : k = key object
    · rw [if_pos atKey]
      refine iff_of_false nofun ?_
      rintro ⟨object', foundOther, keyEq, -⟩
      exact same (distinct other id object' object foundOther found (keyEq.trans atKey))
    · rw [if_neg atKey]
      exact indexes k other

end Indexes

end Foundation.ObjectIndex
