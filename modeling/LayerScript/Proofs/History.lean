/-
`Proofs/History.lean` -- the record over a history of runs.

Runs are carried out one after another on one disk, by whoever and at whatever time, and what one
leaves the next one finds. Of a single run it is known what it adds to the record
(`Host.exists_accounts`), and that it does the same where nothing can be recorded
(`Host.agrees_run`). Both carry over to a history by induction: the lines of the runs stand in the
record one after another behind what was there before, and with a directory in the place of the
record every run is answered as it would be otherwise.

For the second a path must not lead through the record. Where it does, to look it up needs a
directory in the place of the record and is refused for a file, so that a run tells the two apart
without reading the record or writing to it (`obstructed_record_is_noticed`).
-/
import LayerScript.Proofs.Unrecorded

set_option autoImplicit false

namespace LayerScript

open Disk LayerScript.Path

/-! ## 1. Histories -/

/-- Runs that are carried out one after another, each by a host of its own. -/
abbrev History := List (Host × Invocation)

namespace History

variable {place : Location} {d d' : Disk}

/-- The disk after a history. -/
def after : History → Disk → Disk
  | [], d => d
  | (h, i) :: rest, d => after rest (h.answer i d).disk

/-- Whether something holds of every run of a history, on the disk that the run finds. -/
def Along (holds : Host → Invocation → Disk → Prop) : History → Disk → Prop
  | [], _ => True
  | (h, i) :: rest, d => holds h i d ∧ Along holds rest (h.answer i d).disk

/-- Whether events, each with its time, account for what the runs of a history add to the record,
one run after another. -/
inductive Trail (place : Location) : History → Disk → List (Nat × AuditEvent) → Prop
  | nil {d : Disk} : Trail place [] d []
  | cons {h : Host} {i : Invocation} {rest : History} {d : Disk} {events : List AuditEvent}
      {trail : List (Nat × AuditEvent)} (accounts : h.Accounts i d place events)
      (later : Trail place rest (h.answer i d).disk trail) :
      Trail place ((h, i) :: rest) d (events.map (h.time, ·) ++ trail)

/-- Whether the runs of a history do the same on two disks, with what they print, what they note
and what they leave anywhere but at a place. -/
inductive Alike (place : Location) : History → Disk → Disk → Prop
  | nil {d d' : Disk} : Alike place [] d d'
  | cons {h : Host} {i : Invocation} {rest : History} {d d' : Disk}
      (printed : (h.answer i d).printed = (h.answer i d').printed)
      (events : (h.answer i d).events = (h.answer i d').events)
      (disks : AgreeBeside place (h.answer i d).disk (h.answer i d').disk)
      (later : Alike place rest (h.answer i d).disk (h.answer i d').disk) :
      Alike place ((h, i) :: rest) d d'

/-! ## 2. With a record -/

/-- What a history adds to the record are the lines of its trail. -/
theorem Trail.bytes {history : History} {trail : List (Nat × AuditEvent)}
    (h : Trail place history d trail) :
    (history.after d).bytes place = d.bytes place ++ (AuditEvent.lines trail).toUTF8 := by
  induction h with
  | nil => exact ByteArray.append_empty.symm
  | cons accounts later ih =>
      rw [after, ih, accounts.2, AuditEvent.toUTF8_lines_append, ByteArray.append_assoc]

/-- What is assumed of a run for it to be accounted for: the record is kept at the place and can
still be kept afterwards, programs leave the disk alone, and nothing was sent. -/
structure KeepsRecord (place : Location) (h : Host) (i : Invocation) (d : Disk) : Prop where
  recorded : h.recordPlace? = some place
  quiet : ∀ l d, (h.programs.start l d).1 = d
  unsent : ¬ (i.command.sends = true ∧ (h.answer i d).printed.exit = 0)
  lasting : h.CanRecord (h.answer i d).disk

theorem exists_trail {history : History} (hkeeps : history.Along (KeepsRecord place) d) :
    ∃ trail, Trail place history d trail := by
  -- Each run starts on the disk that the one before it left, so the disk is arbitrary.
  induction history generalizing d with
  | nil => exact ⟨[], .nil⟩
  | cons run rest ih =>
      obtain ⟨h, i⟩ := run
      obtain ⟨hrun, hlater⟩ := hkeeps
      obtain ⟨events, haccounts⟩ :=
        Host.exists_accounts hrun.recorded hrun.quiet hrun.unsent hrun.lasting
      obtain ⟨trail, htrail⟩ := ih hlater
      exact ⟨_, .cons haccounts htrail⟩

/-! ## 3. Without one -/

/-- What is assumed of a run for it to take no notice of the record: it is not started below the
place, no path that it uses leads there or through it, and neither do programs look there. -/
structure IgnoresRecord (place : Location) (h : Host) (i : Invocation) (d : Disk) : Prop where
  started : ¬ place <+: h.workingDirectory
  paths : ∀ path ∈ h.usedPaths i d, ¬ LeadsThrough h.workingDirectory path place
  overlook : h.programs.Overlook place

theorem KeepsRecord.evades {h : Host} {i : Invocation} (hkeeps : KeepsRecord place h i d)
    (hignores : IgnoresRecord place h i d) : h.Evades i d place where
  recorded := hkeeps.recorded
  config := Host.avoids_configDirectory hkeeps.recorded hignores.started hkeeps.lasting
  paths path hpath := (avoids_iff hignores.started).mpr (hignores.paths path hpath)
  quiet := hkeeps.quiet
  overlook := hignores.overlook

/-- A history of runs that take no notice of the record is the same without one. -/
theorem alike_of_ignoresRecord {history : History} (hrel : Obstructed place d d')
    (hkeeps : history.Along (KeepsRecord place) d)
    (hignores : history.Along (IgnoresRecord place) d) : Alike place history d d' := by
  -- `Obstructed` is what one run hands on to the next; that the disks agree is read off it.
  induction history generalizing d d' with
  | nil => exact .nil
  | cons run rest ih =>
      obtain ⟨h, i⟩ := run
      obtain ⟨hrun, hkeeps⟩ := hkeeps
      obtain ⟨hsame, hignores⟩ := hignores
      obtain ⟨htraced, hleft⟩ := Host.agrees_run hrel (hrun.evades hsame)
      refine .cons ?_ ?_ hleft.beside (ih hleft hkeeps hignores)
      · exact congrArg (fun t => Printed.ofEnd i.json t.output t.result) htraced
      · exact congrArg Traced.events htraced

/-- **The record accounts for a history.** When the record can be kept throughout, programs leave
the disk alone and nothing is sent, then each run leaves the bytes of the record where they are and
adds the lines of its events: that of writing when all files were written, and after it that of
training, with how it went, when the command was to train; and none when not all files were
written or the command writes none.

With a directory in the place of the record instead, each run prints the same, has the same exit
status and leaves the same files, if the paths it uses do not lead through that place and programs
do not look there. -/
theorem record_accounts_for_history {history : History}
    (hkeeps : history.Along (KeepsRecord place) d) :
    (∃ trail, Trail place history d trail ∧
      (history.after d).bytes place = d.bytes place ++ (AuditEvent.lines trail).toUTF8) ∧
    ∀ d', Obstructed place d d' → history.Along (IgnoresRecord place) d →
      Alike place history d d' := by
  obtain ⟨trail, htrail⟩ := exists_trail hkeeps
  exact ⟨⟨trail, htrail, htrail.bytes⟩,
    fun d' hrel hignores => alike_of_ignoresRecord hrel hkeeps hignores⟩

end History

/-! ## 4. Histories that are given -/

/-- Programs that leave the disk alone and look at nothing but the script they are given. -/
theorem standardPrograms_overlook (place : Location) : standardPrograms.Overlook place := by
  intro l d d' hrel havoids
  have hcopy : copyFile l d = copyFile l d' := by
    unfold copyFile
    rw [readText_eq_of_avoids hrel havoids]
  unfold standardPrograms
  dsimp only
  rw [hcopy]

/-- The place of a record. -/
def homeRecord : Location := ["home", ".config", "netforge", "audit.jsonl"]

/-- A disk with the directory of that record, and a directory to work in. -/
def homeDisk : Disk :=
  ⟨[(["work"], .directory), (["home"], .directory), (["home", ".config"], .directory),
    (["home", ".config", "netforge"], .directory)]⟩

/-- A host that keeps the record there, with a payload on its standard input. -/
def homeHost (programs : Programs) : Host :=
  ⟨["work"], some "/home", looseEndPayload.toUTF8, 0, programs⟩

theorem recordPlace_homeHost (programs : Programs) :
    (homeHost programs).recordPlace? = some homeRecord := by
  change some (locationOf ["work"] (auditFile "/home")) = some homeRecord
  decide +kernel

theorem canRecord_homeHost (programs : Programs) {d : Disk}
    (h : (d.createDirectories ["work"] (configDirectory "/home")).1.locate ["work"]
        (auditFile "/home") = .ok (homeRecord, false) ∧
      (d.createDirectories ["work"] (configDirectory "/home")).1.at? homeRecord
        ≠ some .directory) : (homeHost programs).CanRecord d :=
  (Host.canRecord_iff rfl).mpr ⟨homeRecord, h⟩

theorem obstructed_put (d : Disk) : Obstructed homeRecord d (d.put homeRecord .directory) where
  beside l hl := by
    have hne : l ≠ homeRecord := by
      rintro rfl
      exact hl (List.prefix_refl _)
    exact (at?_put_of_ne d _ hne).symm
  directory := at?_put_self d _ (by decide)

/-- Training with some program. -/
def trainingWith (program : String) : Invocation :=
  ⟨false, none, .train ⟨"-", some "u", none⟩ (some "out") (some program)⟩

/-- Writing where a file is in the way. -/
def blockedWriting : Invocation :=
  ⟨true, none, .compile ⟨"-", some "u", none⟩ (some "out/u/model.py")⟩

/-- Training that fails, and then writing that does. -/
def failingHistory : History :=
  [(homeHost standardPrograms, trainingWith "false"), (homeHost standardPrograms, blockedWriting)]

theorem History.record_accounts_for_failingHistory :
    failingHistory.Along (KeepsRecord homeRecord) homeDisk ∧
      (∃ trail, Trail homeRecord failingHistory homeDisk trail ∧
        (failingHistory.after homeDisk).bytes homeRecord = (AuditEvent.lines trail).toUTF8) ∧
      Alike homeRecord failingHistory homeDisk (homeDisk.put homeRecord .directory) := by
  have hplace := recordPlace_homeHost standardPrograms
  have hover := standardPrograms_overlook homeRecord
  have hkeeps : failingHistory.Along (KeepsRecord homeRecord) homeDisk := by
    refine ⟨⟨hplace, fun _ _ => rfl, nofun, ?_⟩, ⟨hplace, fun _ _ => rfl, nofun, ?_⟩, trivial⟩
    · exact canRecord_homeHost _ (by decide +kernel)
    · exact canRecord_homeHost _ (by decide +kernel)
  have hignores : failingHistory.Along (IgnoresRecord homeRecord) homeDisk :=
    ⟨⟨by decide, by decide +kernel, hover⟩, ⟨by decide, by decide +kernel, hover⟩, trivial⟩
  obtain ⟨⟨trail, htrail, hbytes⟩, halike⟩ := record_accounts_for_history hkeeps
  have hempty : homeDisk.bytes homeRecord = .empty := by decide +kernel
  rw [hempty, ByteArray.empty_append] at hbytes
  exact ⟨hkeeps, ⟨trail, htrail, hbytes⟩, halike _ (obstructed_put _) hignores⟩

/-- A disk with a record and a payload beside it. -/
def recordedDisk : Disk :=
  (homeDisk.put homeRecord (.file .empty)).put ["home", ".config", "netforge", "p"]
    (.file looseEndPayload.toUTF8)

/-- Showing the order of a payload, by a path that leads through the record. -/
def throughRecord (name : String) : Invocation :=
  ⟨false, none, .order ("../home/.config/netforge/audit.jsonl/../" ++ name) none⟩

/-- Programs that fail when there is a directory in the place of the record. -/
def watchfulPrograms : Programs :=
  { standardPrograms with
    start := fun _ d =>
      (d, .ok ⟨.exited (if d.at? homeRecord = some .directory then 1 else 0), "", ""⟩) }

/-- **Without these conditions a directory in the place of the record is noticed**: by a run whose
payload has a path through that place, in its message and even in its exit status, and by a program
that looks there, though neither reads the record or writes anywhere near it. -/
theorem obstructed_record_is_noticed :
    (∀ name ∈ ["p", "missing"],
      History.KeepsRecord homeRecord (homeHost standardPrograms) (throughRecord name)
          recordedDisk ∧
        locationOf ["work"] ("../home/.config/netforge/audit.jsonl/../" ++ name)
          = ["home", ".config", "netforge", name]) ∧
    History.KeepsRecord homeRecord (homeHost watchfulPrograms) (trainingWith "python3")
      recordedDisk ∧
    Obstructed homeRecord recordedDisk (recordedDisk.put homeRecord .directory) ∧
    (let host := homeHost standardPrograms
     (host.answer (throughRecord "p") recordedDisk).printed.exit = 1 ∧
      (host.answer (throughRecord "p") (recordedDisk.put homeRecord .directory)).printed.exit = 0 ∧
      (host.answer (throughRecord "missing") recordedDisk).printed.errors
        = "error: reading payload ../home/.config/netforge/audit.jsonl/../missing: "
          ++ "Not a directory (os error 20)\n" ∧
      (host.answer (throughRecord "missing")
          (recordedDisk.put homeRecord .directory)).printed.errors
        = "error: reading payload ../home/.config/netforge/audit.jsonl/../missing: "
          ++ "No such file or directory (os error 2)\n") ∧
    (let host := homeHost watchfulPrograms
     (host.answer (trainingWith "python3") recordedDisk).printed.exit = 0 ∧
      (host.answer (trainingWith "python3")
        (recordedDisk.put homeRecord .directory)).printed.exit = 1) := by
  have hkept (programs : Programs) (i : Invocation) (hsends : i.command.sends = false)
      (hquiet : ∀ l d, (programs.start l d).1 = d)
      (hlasting : (homeHost programs).CanRecord ((homeHost programs).answer i recordedDisk).disk) :
      History.KeepsRecord homeRecord (homeHost programs) i recordedDisk :=
    ⟨recordPlace_homeHost programs, hquiet, fun hsent => by simp [hsends] at hsent, hlasting⟩
  refine ⟨fun name hname => ?_, hkept _ _ rfl (fun _ _ => rfl) ?_, obstructed_put _, ?_, ?_⟩
  · rcases List.mem_pair.mp hname with rfl | rfl
    all_goals
      refine ⟨hkept _ _ rfl (fun _ _ => rfl) ?_, by decide +kernel⟩
      exact canRecord_homeHost _ (by decide +kernel)
  · exact canRecord_homeHost _ (by decide +kernel)
  · exact ⟨by decide +kernel, by decide +kernel, by decide +kernel, by decide +kernel⟩
  · exact ⟨by decide +kernel, by decide +kernel⟩

end LayerScript
