import ExaProxy.Data.Methods

namespace ExaProxy.Data

/-- `os.path.join(first, second)` -/
def joinPath (first second : Str) : Str :=
  if ascii "/" <+: second then second
  else if first = [] ∨ ascii "/" <:+ first then first ++ second
  else first ++ ascii "/" ++ second

/-- The loop of `os.path.normpath`, for a path that is absolute or not. -/
def normalParts (absolute : Bool) (kept : List Str) : List Str → List Str
  | [] => kept
  | part :: rest =>
      if part = [] ∨ part = ascii "." then normalParts absolute kept rest
      else if part ≠ ascii ".." ∨ (absolute = false ∧ kept = []) ∨ kept.getLast? = some (ascii "..") then
        normalParts absolute (kept ++ [part]) rest
      else normalParts absolute kept.dropLast rest

/-- `os.path.normpath(path)`: two slashes at the start stay. -/
def normpath (path : Str) : Str :=
  let slashes :=
    if ¬ ascii "/" <+: path then []
    else if ascii "//" <+: path ∧ ¬ ascii "///" <+: path then ascii "//"
    else ascii "/"
  let path := slashes ++ Str.join (ascii "/") (normalParts (decide (slashes ≠ [])) [] (Str.split (ascii "/") path))
  if path = [] then ascii "." else path

/-- The file of this name below the location, with the empty name for any other. -/
def pathBelow (location name : Str) : Str :=
  let filename := normpath (joinPath location name)
  if location ++ ascii "/" <+: filename then filename else []

variable {path location name : Str} {byte : UInt8}

theorem normalParts_subset (absolute : Bool) (kept parts : List Str) :
    ∀ part ∈ normalParts absolute kept parts, part ∈ kept ∨ part ∈ parts := by
  induction parts generalizing kept with
  | nil => exact fun part member => .inl member
  | cons first parts ih =>
      intro part member
      rw [normalParts] at member
      split at member
      · exact (ih kept part member).imp_right (List.mem_cons_of_mem first)
      · split at member
        · rcases ih _ part member with before | later
          · rcases List.mem_append.mp before with before | last
            · exact .inl before
            · exact .inr (List.mem_singleton.mp last ▸ List.mem_cons_self)
          · exact .inr (List.mem_cons_of_mem first later)
        · rcases ih _ part member with before | later
          · exact .inl (List.dropLast_subset kept before)
          · exact .inr (List.mem_cons_of_mem first later)

theorem splitUpTo_mem {sep s part : Str} {count : Nat} (member : part ∈ Str.splitUpTo sep count s)
    (inside : byte ∈ part) : byte ∈ s := by
  induction count generalizing s with
  | zero => exact List.mem_singleton.mp member ▸ inside
  | succ count ih =>
      rw [Str.splitUpTo] at member
      split at member
      · next first rest found =>
          rw [Str.splitOnce_whole found]
          rcases List.mem_cons.mp member with rfl | later
          · exact List.mem_append_left _ (List.mem_append_left _ inside)
          · exact List.mem_append_right _ (ih later)
      · exact List.mem_singleton.mp member ▸ inside

theorem join_mem {sep : Str} {parts : List Str} (member : byte ∈ Str.join sep parts) :
    byte ∈ sep ∨ ∃ part ∈ parts, byte ∈ part := by
  induction parts with
  | nil => cases member
  | cons first parts ih =>
      cases parts with
      | nil =>
          rw [Str.join, List.intercalate_singleton] at member
          exact .inr ⟨first, List.mem_cons_self, member⟩
      | cons next parts =>
          rw [Str.join, List.intercalate_cons_cons] at member
          rcases List.mem_append.mp member with before | later
          · rcases List.mem_append.mp before with here | between
            · exact .inr ⟨first, List.mem_cons_self, here⟩
            · exact .inl between
          · rcases ih later with between | ⟨part, among, inside⟩
            · exact .inl between
            · exact .inr ⟨part, List.mem_cons_of_mem first among, inside⟩

/-- A path that is put in order has no bytes but its own, slashes and dots. -/
theorem normpath_mem (member : byte ∈ normpath path) : byte ∈ path ∨ byte ∈ ascii "/." := by
  simp only [normpath] at member
  generalize starts : (if ¬ ascii "/" <+: path then []
    else if ascii "//" <+: path ∧ ¬ ascii "///" <+: path then ascii "//" else ascii "/") = slashes at member
  have slash : ∀ byte ∈ slashes, byte ∈ ascii "/." := by
    subst starts
    split_ifs
    · decide +kernel
    · decide +kernel
    · simp
  split_ifs at member
  · exact .inr (List.mem_append_right (ascii "/") member)
  · rcases List.mem_append.mp member with start | joined
    · exact .inr (slash byte start)
    · rcases join_mem joined with between | ⟨part, among, inside⟩
      · exact .inr (List.mem_append_left (ascii ".") between)
      · rcases normalParts_subset _ _ _ part among with kept | part
        · cases kept
        · exact .inl (splitUpTo_mem part inside)

theorem joinPath_mem {first second : Str} (member : byte ∈ joinPath first second) :
    byte ∈ first ∨ byte ∈ second ∨ byte ∈ ascii "/" := by
  unfold joinPath at member
  split at member
  · exact .inr (.inl member)
  · split at member
    · rcases List.mem_append.mp member with before | after
      · exact .inl before
      · exact .inr (.inl after)
    · rcases List.mem_append.mp member with before | after
      · exact (List.mem_append.mp before).imp_right .inr
      · exact .inr (.inl after)

/-- A name without null bytes has a path without them. -/
theorem pathBelow_plain (plain : 0 ∉ location) (named : 0 ∉ name) : 0 ∉ pathBelow location name := by
  intro member
  unfold pathBelow at member
  dsimp only at member
  split at member
  · rcases normpath_mem member with path | slash
    · rcases joinPath_mem path with before | after | slash
      · exact plain before
      · exact named after
      · exact absurd slash (by decide)
    · exact absurd slash (by decide)
  · cases member

end ExaProxy.Data
