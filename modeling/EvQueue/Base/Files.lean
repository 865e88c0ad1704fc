import Mathlib.Logic.Function.Basic

/-!
# Files — names, files and open descriptors

A name stands for a file until it is removed.  A descriptor keeps the file that it was opened for, whatever
becomes of the name, and the offset at which the next byte is written.  Files are numbered in the order in
which they are made, and no number is used twice.
-/

namespace EvQueue.Files

variable {Name : Type}

structure Directory (Name : Type) where
  file : Name → Option Nat
  contents : Nat → List UInt8
  count : Nat
  bound : ∀ name f, file name = some f → f < count
  /-- No file has two names. -/
  single : ∀ name name' f, file name = some f → file name' = some f → name = name'

structure Descriptor where
  file : Nat
  offset : Nat
deriving DecidableEq, Repr

/-- What `write` makes of a file: a gap in front of the offset is filled with zeros. -/
def overwrite (contents : List UInt8) (offset : Nat) (bytes : List UInt8) : List UInt8 :=
  (contents ++ List.replicate (offset - contents.length) 0).take offset ++ bytes ++
    contents.drop (offset + bytes.length)

theorem overwrite_length (contents bytes : List UInt8) :
    overwrite contents contents.length bytes = contents ++ bytes := by
  have hdrop : contents.drop (contents.length + bytes.length) = [] := by
    rw [List.drop_eq_nil_iff]
    omega
  unfold overwrite
  rw [Nat.sub_self, List.replicate_zero, List.append_nil, List.take_length, hdrop, List.append_nil]

namespace Directory

variable (d : Directory Name)

def empty : Directory Name where
  file := fun _ ↦ none
  contents := fun _ ↦ []
  count := 0
  bound := nofun
  single := nofun

def write (descriptor : Descriptor) (bytes : List UInt8) : Directory Name :=
  { d with
    contents := Function.update d.contents descriptor.file
      (overwrite (d.contents descriptor.file) descriptor.offset bytes) }

variable {d} {f : Nat} {descriptor : Descriptor}

/-- The bytes go behind the end of the file when the offset is there. -/
theorem contents_write_end (hend : descriptor.offset = (d.contents descriptor.file).length)
    (bytes : List UInt8) : (d.write descriptor bytes).contents descriptor.file =
      d.contents descriptor.file ++ bytes := by
  have hwrite : (d.write descriptor bytes).contents descriptor.file = _ := Function.update_self ..
  rw [hwrite, hend, overwrite_length]

theorem contents_write_of_ne (hne : f ≠ descriptor.file) (bytes : List UInt8) :
    (d.write descriptor bytes).contents f = d.contents f :=
  Function.update_of_ne hne ..

variable (d) [DecidableEq Name]

/-- A new file under a name that is not taken. -/
def make (name : Name) : Directory Name where
  file := Function.update d.file name (some d.count)
  contents := Function.update d.contents d.count []
  count := d.count + 1
  bound := by
    intro name' f hfile
    by_cases hname : name' = name
    · rw [hname, Function.update_self, Option.some.injEq] at hfile
      omega
    · rw [Function.update_of_ne hname] at hfile
      exact Nat.lt_succ_of_lt (d.bound name' f hfile)
  single := by
    intro x y f hx hy
    by_cases hxname : x = name <;> by_cases hyname : y = name
    · rw [hxname, hyname]
    · rw [hxname, Function.update_self, Option.some.injEq] at hx
      rw [Function.update_of_ne hyname] at hy
      have hlt := d.bound y f hy
      omega
    · rw [hyname, Function.update_self, Option.some.injEq] at hy
      rw [Function.update_of_ne hxname] at hx
      have hlt := d.bound x f hx
      omega
    · rw [Function.update_of_ne hxname] at hx
      rw [Function.update_of_ne hyname] at hy
      exact d.single x y f hx hy

/-- `open` with `O_CREAT|O_TRUNC`, and the file that is opened. -/
def openTruncated (name : Name) : Nat × Directory Name :=
  match d.file name with
  | some f => (f, { d with contents := Function.update d.contents f [] })
  | none => (d.count, d.make name)

def unlink (name : Name) : Directory Name where
  file := Function.update d.file name none
  contents := d.contents
  count := d.count
  bound := by
    intro name' f hfile
    by_cases hname : name' = name
    · rw [hname, Function.update_self] at hfile
      cases hfile
    · rw [Function.update_of_ne hname] at hfile
      exact d.bound name' f hfile
  single := by
    intro x y f hx hy
    by_cases hxname : x = name
    · rw [hxname, Function.update_self] at hx
      cases hx
    · by_cases hyname : y = name
      · rw [hyname, Function.update_self] at hy
        cases hy
      · rw [Function.update_of_ne hxname] at hx
        rw [Function.update_of_ne hyname] at hy
        exact d.single x y f hx hy

variable {d} {name name' : Name}

/-- What `openTruncated` does to the directory. -/
structure Opened (d : Directory Name) (name : Name) (f : Nat) (d' : Directory Name) : Prop where
  file : d'.file name = some f
  others : ∀ x ≠ name, d'.file x = d.file x
  contents : d'.contents f = []
  keeps : ∀ g ≠ f, d'.contents g = d.contents g
  old : d.file name = some f ∨ d.file name = none ∧ f = d.count
  count : d.count ≤ d'.count

theorem opened_openTruncated (d : Directory Name) (name : Name) :
    Opened d name (d.openTruncated name).1 (d.openTruncated name).2 := by
  unfold openTruncated
  cases hfile : d.file name with
  | some f =>
    exact ⟨hfile, fun _ _ ↦ rfl, Function.update_self .., fun _ hne ↦ Function.update_of_ne hne ..,
      .inl hfile, Nat.le_refl _⟩
  | none =>
    exact ⟨Function.update_self .., fun _ hne ↦ Function.update_of_ne hne .., Function.update_self ..,
      fun _ hne ↦ Function.update_of_ne hne .., .inr ⟨hfile, rfl⟩, Nat.le_succ _⟩

theorem file_unlink_of_ne (hne : name' ≠ name) : (d.unlink name).file name' = d.file name' :=
  Function.update_of_ne hne ..

theorem file_unlink_self : (d.unlink name).file name = none := Function.update_self ..

end Directory

end EvQueue.Files
