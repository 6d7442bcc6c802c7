import ExaProxy.Content.Manager
import ExaProxy.Data.Transition
import ExaProxy.Http.Pages
import Mathlib.Data.Rat.Defs

namespace ExaProxy.Content

open ExaProxy.Data
open ExaProxy.Http (Banner StatusCode Framed)

structure FileStat where
  size : Nat
  mtime : ℚ
deriving DecidableEq, Repr

/-- The regular files, and what can be read of them. -/
structure Disk where
  stat : Str → Option FileStat
  read : Str → Option Str

/-- `os.stat` of a regular file; no file has the empty name. -/
def Disk.fileStat (disk : Disk) (filename : Str) : Option FileStat :=
  if filename = [] then none else disk.stat filename

/-- `location` and `_header` of the manager. -/
structure LocalPages where
  location : Str
  header : AList (fun _ : Str => Nat × Str) := ∅

namespace LocalPages

variable (pages : LocalPages) (disk : Disk) (banner : Banner)

def filename (name : Str) : Str := pathBelow pages.location name

/-- A new header is kept, under the size of the file for its time. -/
def renew (code : StatusCode) (filename : Str) (stat : FileStat) : LocalContent × LocalPages :=
  let header := code.fileHeader banner stat.size (ascii "1.1")
  (.file header filename, { pages with header := pages.header.insert filename (stat.size, header) })

/-- `getLocalContent`: `isfile` raises for a null byte, and a file that is found can be
asked for its size. -/
def getLocalContent (code : StatusCode) (name : Str) : Except Raised (LocalContent × LocalPages) :=
  let filename := pages.filename name
  if 0 ∈ filename then .error .typeError
  else
    match disk.fileStat filename with
    | some stat =>
        match pages.header.lookup filename with
        | some (cacheTime, header) =>
            if (cacheTime : ℚ) < stat.mtime then .ok (pages.renew banner code filename stat)
            else .ok (.file header filename, pages)
        | none => .ok (pages.renew banner code filename stat)
    | none =>
        .ok (.missing ((StatusCode.number 501).http banner (ascii "could not serve missing file " ++ filename)
          (ascii "1.1")), pages)

/-- `readLocalContent`, where `format` is the operator `%` on the text of the file. -/
def readLocalContent (format : Str → List (Str × Str) → Except Raised Str) (code : StatusCode) (reason : Str)
    (data : List (Str × Str)) : Except Raised Str :=
  let filename := pages.filename reason
  if 0 ∈ filename then .error .typeError
  else
    match (disk.fileStat filename).bind fun _ => disk.read filename with
    | some text => (format text data).map fun body => code.http banner body (ascii "1.1")
    | none =>
        .ok ((StatusCode.number 501).http banner (ascii "could not serve missing file  " ++ reason) (ascii "1.1"))

/-- Every header that is kept was built for a file. -/
def Cached : Prop := ∀ filename cacheTime header, pages.header.lookup filename = some (cacheTime, header) →
  ∃ banner code size, header = StatusCode.fileHeader banner code size (ascii "1.1")

variable {pages disk banner} {after : LocalPages} {content : LocalContent} {code : StatusCode}
  {name header filename page : Str} {stat : FileStat}

theorem Cached.renew (cached : pages.Cached) : (pages.renew banner code filename stat).2.Cached := by
  intro other cacheTime header found
  by_cases same : other = filename
  · subst same
    rw [LocalPages.renew, AList.lookup_insert] at found
    cases found
    exact ⟨banner, code, stat.size, rfl⟩
  · rw [LocalPages.renew, AList.lookup_insert_ne same] at found
    exact cached other cacheTime header found

/-- What `getLocalContent` can come to. -/
theorem getLocalContent_cases (ok : pages.getLocalContent disk banner code name = .ok (content, after)) :
    (∃ stat, (content, after) = pages.renew banner code (pages.filename name) stat) ∨
      after = pages ∧ ((∃ cacheTime header, pages.header.lookup (pages.filename name) = some (cacheTime, header) ∧
        content = .file header (pages.filename name)) ∨
          ∃ message, content = .missing ((StatusCode.number 501).http banner message (ascii "1.1"))) := by
  simp only [LocalPages.getLocalContent] at ok
  split at ok
  · cases ok
  · split at ok
    · next stat found =>
        split at ok
        · next cacheTime header kept =>
            split at ok
            · exact .inl ⟨stat, (Except.ok.inj ok).symm⟩
            · cases ok
              exact .inr ⟨rfl, .inl ⟨cacheTime, header, kept, rfl⟩⟩
        · exact .inl ⟨stat, (Except.ok.inj ok).symm⟩
    · cases ok
      exact .inr ⟨rfl, .inr ⟨_, rfl⟩⟩

theorem Cached.getLocalContent (cached : pages.Cached)
    (ok : pages.getLocalContent disk banner code name = .ok (content, after)) : after.Cached := by
  obtain ⟨stat, renewed⟩ | ⟨rfl, _⟩ := getLocalContent_cases ok
  · have same : after = (pages.renew banner code (pages.filename name) stat).2 := congrArg Prod.snd renewed
    rw [same]
    exact cached.renew
  · exact cached

def Serves (before after : LocalPages) : Prop :=
  ∃ disk banner code name content, before.getLocalContent disk banner code name = .ok (content, after)

theorem cached_of_reachable (reached : Reachable (fun pages : LocalPages => pages.header = ∅) Serves pages) :
    pages.Cached := by
  refine reached.invariant Cached ?_ ?_
  · intro start empty filename cacheTime header found
    rw [empty, AList.lookup_empty] at found
    cases found
  · intro before after _ cached serves
    obtain ⟨disk, banner, code, name, content, ok⟩ := serves
    exact cached.getLocalContent ok

/-- An answer about a local file: its header, which was built for it now or before,
or a page that says that it is missing. -/
inductive Served (banner : Banner) : LocalContent → Prop where
  | file {earlier : Banner} {code : StatusCode} {size : Nat} {filename : Str} :
      Served banner (.file (code.fileHeader earlier size (ascii "1.1")) filename)
  | missing {message : Str} : Served banner (.missing ((StatusCode.number 501).http banner message (ascii "1.1")))

theorem getLocalContent_served (cached : pages.Cached)
    (ok : pages.getLocalContent disk banner code name = .ok (content, after)) : Served banner content := by
  obtain ⟨stat, renewed⟩ | ⟨-, ⟨cacheTime, header, kept, rfl⟩ | ⟨message, rfl⟩⟩ := getLocalContent_cases ok
  · have same : content = (pages.renew banner code (pages.filename name) stat).1 := congrArg Prod.fst renewed
    rw [same]
    exact .file
  · obtain ⟨earlier, code, size, rfl⟩ := cached _ _ _ kept
    exact .file
  · exact .missing

theorem getLocalContent_new (banner : Banner) (code : StatusCode) (plain : 0 ∉ pages.filename name)
    (found : disk.fileStat (pages.filename name) = some stat)
    (unknown : pages.header.lookup (pages.filename name) = none) : ∃ after,
    pages.getLocalContent disk banner code name =
      .ok (.file (code.fileHeader banner stat.size (ascii "1.1")) (pages.filename name), after) := by
  simp only [getLocalContent, if_neg plain, found, unknown, renew]
  exact ⟨_, rfl⟩

/-- A name raises exactly if its path has a null byte. -/
theorem getLocalContent_raises_iff (pages : LocalPages) (disk : Disk) (banner : Banner) (code : StatusCode) (name : Str) :
    (∃ raised, pages.getLocalContent disk banner code name = .error raised) ↔ 0 ∈ pages.filename name := by
  simp only [getLocalContent]
  by_cases null : 0 ∈ pages.filename name
  · simp [null]
  · simp only [null, if_false, iff_false, not_exists]
    intro raised
    split
    · split
      · split <;> simp
      · simp
    · simp

end LocalPages

end ExaProxy.Content
