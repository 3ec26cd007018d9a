import NginxFastcgi.Network.PollPool

/-!
# Descriptors in the kernel

What releasing, creating and registering a descriptor does to the open
descriptors, the interest list and the calls of `close`.
-/

namespace NginxFastcgi.Network

namespace Kernel

/-- The interest in one descriptor ended, and nothing else changed except that
the descriptor may have been closed. -/
structure Released (before after : Kernel) (fd : Int) : Prop where
  uninterested : after.interest fd = false
  interest : ∀ other, other ≠ fd → after.interest other = before.interest other
  opened : ∀ other, other ≠ fd → after.opened other = before.opened other

theorem released_close (kernel : Kernel) (fd : Int) :
    kernel.Released (kernel.close fd) fd :=
  ⟨Function.update_self _ _ _, fun _ different => Function.update_of_ne different _ _,
    fun _ different => Function.update_of_ne different _ _⟩

theorem released_delete {kernel : Kernel} {fd : Int} (interested : kernel.interest fd) :
    kernel.Released (kernel.delete fd).1 fd := by
  rw [delete, if_pos interested]
  exact ⟨Function.update_self _ _ _, fun _ different => Function.update_of_ne different _ _,
    fun _ _ => rfl⟩

theorem Released.trans {first second third : Kernel} {fd : Int}
    (before : first.Released second fd) (after : second.Released third fd) :
    first.Released third fd :=
  ⟨after.uninterested,
    fun other different => (after.interest other different).trans (before.interest other different),
    fun other different => (after.opened other different).trans (before.opened other different)⟩

/-- Each of the created descriptors is registered now or was closed since, once
and not more, and so is each that was registered before. -/
def Accounts (before after : Kernel) (created : List Int) : Prop :=
  ∀ fd, 0 < fd → after.closed.count fd + (after.interest fd).toNat =
    before.closed.count fd + (before.interest fd).toNat + created.count fd

theorem accounts_refl (kernel : Kernel) : kernel.Accounts kernel [] :=
  fun _ _ => rfl

theorem Accounts.trans {first second third : Kernel} {before after : List Int}
    (earlier : first.Accounts second before) (later : second.Accounts third after) :
    first.Accounts third (before ++ after) := by
  intro fd positive
  rw [later fd positive, earlier fd positive, List.count_append, Nat.add_assoc]

/-- The count of a list with one more descriptor at its end. -/
theorem count_append_of_ne {closed : List Int} {fd other : Int} (different : other ≠ fd) :
    (closed ++ [fd]).count other = closed.count other := by
  rw [List.count_append, List.count_singleton]
  simp [different.symm]

theorem count_append_self (closed : List Int) (fd : Int) :
    (closed ++ [fd]).count fd = closed.count fd + 1 := by
  rw [List.count_append, List.count_singleton_self]

/-- A registered descriptor is taken off the interest list and closed. -/
theorem accounts_release {kernel : Kernel} {fd : Int} (interested : kernel.interest fd = true) :
    kernel.Accounts (if fd > 0 then (kernel.delete fd).1.close fd else (kernel.delete fd).1)
      [] := by
  have deleted : (kernel.delete fd).1 =
      { kernel with interest := Function.update kernel.interest fd false } := by
    rw [delete, if_pos interested]
  rw [deleted]
  intro other positive
  by_cases same : other = fd
  · subst same
    rw [if_pos positive]
    simp only [close, count_append_self, Function.update_self, interested, Bool.toNat_true,
      Bool.toNat_false, List.count_nil, Nat.add_zero]
  · split
    · simp only [close, count_append_of_ne same, Function.update_of_ne same, List.count_nil,
        Nat.add_zero]
    · simp only [Function.update_of_ne same, List.count_nil, Nat.add_zero]

/-- A new descriptor is closed at once. -/
theorem accounts_closeNew {kernel : Kernel} {fd : Int} (uninterested : kernel.interest fd = false) :
    kernel.Accounts ((kernel.create fd).close fd) [fd] := by
  intro other _
  by_cases same : other = fd
  · subst same
    simp only [close, create, count_append_self, Function.update_self, uninterested,
      List.count_singleton_self, Bool.toNat_false, Nat.add_zero]
  · simp only [close, create, count_append_of_ne same, Function.update_of_ne same,
      List.count_singleton, beq_eq_false_iff_ne.mpr (Ne.symm same), Bool.false_eq_true, if_false,
      Nat.add_zero]

/-- A new descriptor is closed by the destructor of its unit. -/
theorem accounts_destroyNew {kernel : Kernel} {fd : Int}
    (uninterested : kernel.interest fd = false) :
    kernel.Accounts (if fd > 0 then (kernel.create fd).close fd else kernel.create fd) [fd] := by
  by_cases positive : fd > 0
  · rw [if_pos positive]
    exact accounts_closeNew uninterested
  · rw [if_neg positive]
    intro other otherPositive
    have different : fd ≠ other := by omega
    simp only [create, List.count_singleton, beq_eq_false_iff_ne.mpr different,
      Bool.false_eq_true, if_false, Nat.add_zero]

/-- A new descriptor is put on the interest list. -/
theorem accounts_register {kernel : Kernel} {fd : Int}
    (uninterested : kernel.interest fd = false) :
    kernel.Accounts
      { kernel.create fd with interest := Function.update kernel.interest fd true } [fd] := by
  intro other _
  by_cases same : other = fd
  · subst same
    simp only [create, Function.update_self, uninterested, List.count_singleton_self,
      Bool.toNat_true, Bool.toNat_false, Nat.add_zero]
  · simp only [create, Function.update_of_ne same, List.count_singleton,
      beq_eq_false_iff_ne.mpr (Ne.symm same), Bool.false_eq_true, if_false, Nat.add_zero]

end Kernel

end NginxFastcgi.Network
