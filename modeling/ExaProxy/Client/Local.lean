import ExaProxy.Client.Writing
import ExaProxy.Content.Local

namespace ExaProxy.Client

open ExaProxy.Data
open ExaProxy.Http (Banner StatusCode Framed)
open ExaProxy.Content (Send Reply LocalContent LocalPages Disk)

/-- A response that is built here, for a message or for a file that holds this
content, with what is to follow its header. -/
inductive Generated (banner : Banner) : Reply → Str → Prop where
  | page {code : StatusCode} {message : Str} :
      Generated banner (.close (some (code.http banner message (ascii "1.1")))) message
  | file {code : StatusCode} {filename content : Str} :
      Generated banner (.file (code.fileHeader banner content.length (ascii "1.1")) filename) content

variable {banner : Banner} {reply : Reply} {content name header filename : Str} {source : Source}
  {writer after : Writer} {send : Send} {result : Option (Bool × Bool)} {pages : LocalPages}

theorem Generated.framed_iff (plain : banner.Unbroken) (generated : Generated banner reply content) :
    Framed (Writer.passedBy reply content) content ↔ ∀ header filename, reply ≠ .file header filename := by
  cases generated with
  | page => exact iff_of_true (StatusCode.http_framed plain (by decide)) (by simp)
  | file => exact iff_of_false (StatusCode.fileHeader_unframed _ _ _ _ _) (by simp)

/-- What a client is sent for a response, after all that it was sent before, is framed
unless it is a file. -/
theorem generated_framed_iff (plain : banner.Unbroken) (http : source = .proxy ∨ source = .web)
    (generated : Generated banner reply content)
    (started : writer.startData source reply send (some content) = .ok (result, after)) :
    ∃ sent, writer.startTaken reply send content ++ after.wBuffer = writer.wBuffer ++ sent ∧
      (Framed sent content ↔ ∀ header filename, reply ≠ .file header filename) :=
  ⟨_, Writer.startData_conserves http started, generated.framed_iff plain⟩

theorem getLocalContent_generated {disk : Disk} {code : StatusCode} {stat : Content.FileStat}
    (plain : 0 ∉ pages.filename name) (found : disk.fileStat (pages.filename name) = some stat)
    (same : stat.size = content.length) (unknown : pages.header.lookup (pages.filename name) = none) :
    ∃ served after, pages.getLocalContent disk banner code name = .ok (served, after) ∧
      Generated banner served.reply content := by
  obtain ⟨after, ok⟩ := LocalPages.getLocalContent_new banner code plain found unknown
  rw [same] at ok
  exact ⟨_, after, ok, .file⟩

theorem readLocalContent_generated {disk : Disk} {format : Str → List (Str × Str) → Except Raised Str}
    {code : StatusCode} {data : List (Str × Str)} {page : Str}
    (read : pages.readLocalContent disk banner format code name data = .ok page) :
    ∃ message, Generated banner (.close (some page)) message := by
  simp only [LocalPages.readLocalContent] at read
  split at read
  · cases read
  · split at read
    · obtain ⟨body, _, rfl⟩ := map_ok read
      exact ⟨body, .page⟩
    · cases read
      exact ⟨_, .page⟩

section Reached

variable (reached : Reachable (fun pages : LocalPages => pages.header = ∅) LocalPages.Serves pages)
  {disk : Disk} {code : StatusCode}

include reached

/-- No answer with a local file is framed, also with a header that was kept. -/
theorem local_unframed {kept : LocalPages}
    (served : pages.getLocalContent disk banner code name = .ok (.file header filename, kept))
    (content : Str) : ¬ Framed (Writer.passedBy (.file header filename) content) content := by
  have shape := LocalPages.getLocalContent_served (LocalPages.cached_of_reachable reached) served
  cases shape
  exact StatusCode.fileHeader_unframed _ _ _ _ _

theorem missing_generated {page : Str} {kept : LocalPages}
    (served : pages.getLocalContent disk banner code name = .ok (.missing page, kept)) :
    ∃ message, Generated banner (LocalContent.missing page).reply message := by
  have shape := LocalPages.getLocalContent_served (LocalPages.cached_of_reachable reached) served
  cases shape
  exact ⟨_, .page⟩

end Reached

def serverBanner : Banner := ⟨ascii "Mon Jan  6 12:00:00 2014 UTC", ascii "1.2", ascii "linux2"⟩

theorem serverBanner_unbroken : serverBanner.Unbroken := ⟨by decide, by decide, by decide⟩

/-- The page for a trace request, which the socket takes in part. -/
def emptyPage : Reply := .close (some ((StatusCode.text 200).http serverBanner [] (ascii "1.1")))

theorem generated_framed_empty :
    ∃ result after, (Writer.startData {} .proxy emptyPage (.accepted 100) (some [])) = .ok (result, after) ∧
      ∃ sent, Writer.startTaken {} emptyPage (.accepted 100) [] ++ after.wBuffer = [] ++ sent ∧
        (Framed sent [] ↔ ∀ header filename, emptyPage ≠ .file header filename) := by
  obtain ⟨result, after, started⟩ : ∃ result after,
      Writer.startData {} .proxy emptyPage (.accepted 100) (some []) = .ok (result, after) := ⟨_, _, rfl⟩
  exact ⟨result, after, started, generated_framed_iff serverBanner_unbroken (.inl rfl) .page started⟩

/-- The answer with a file that holds `ok`. -/
def smallFile : Reply :=
  .file ((StatusCode.text 200).fileHeader serverBanner (ascii "ok").length (ascii "1.1")) (ascii "/srv/ok.html")

theorem smallFile_unframed : Generated serverBanner smallFile (ascii "ok") ∧
    Str.splitOnce (ascii "\r\n\r\n") (Writer.passedBy smallFile (ascii "ok")) = none ∧
    ¬ Framed (Writer.passedBy smallFile (ascii "ok")) (ascii "ok") := by
  have unsplit : Str.splitOnce (ascii "\r\n\r\n") (Writer.passedBy smallFile (ascii "ok")) = none := by
    decide +kernel
  refine ⟨.file, unsplit, ?_⟩
  intro given
  obtain ⟨header, found, _⟩ := given
  rw [unsplit] at found
  cases found

end ExaProxy.Client
