import CniPlugin.Proofs.HandlerGate
import CniPlugin.Proofs.LogEntries
import CniPlugin.Proofs.OutputTrace
import CniPlugin.Recorder
/-!
# The log of the recorder is a journal

Whatever invocations the recorder serves one after the other, and whatever files there are, each
adds one line to one file or leaves all files alone, as long as there is room.  So a file that only
the recorder writes to holds one entry for each invocation that logged to it, in order.

There may be too little room for a line.  What fits of it is stored then, and what is logged next,
when there is room again, comes directly behind that.

Results:
1. `logPath_eq_some_iff`: the path that is logged to.
2. `gains_of_stores`, `files_of_not_opens`: what one invocation does to the files.
3. `find?_of_journal`: what any number of them do to a file.
4. `faithful_journal`: all of it.
-/

namespace CniPlugin

/-! ## Definitions -/

namespace Files

/-- What there is in the file at a location; a file that is missing is empty. -/
def Holds (files : Files) (location : Location) (content : Bytes) : Prop :=
  files.find? location = none ∧ content = [] ∨ files.find? location = some (.file content)

/-- The file at a location has got bytes behind what it held, and no other file has changed. -/
structure Gains (before after : Files) (location : Location) (bytes : Bytes) : Prop where
  gained : ∃ old, before.Holds location old ∧ after.find? location = some (.file (old ++ bytes))
  elsewhere : ∀ other, other ≠ location → after.find? other = before.find? other
  working : after.working = before.working

end Files

namespace Recorder

/-- The path that is logged to. -/
inductive SelectsPath (settings : Settings) : List (String × String) → String → Prop
  /-- The value of the first `DEBUG` pair, even if it is empty. -/
  | debug {before after : List (String × String)} {path : String} :
      (∀ pair ∈ before, pair.1 ≠ "DEBUG") →
      SelectsPath settings (before ++ ("DEBUG", path) :: after) path
  /-- Without such a pair, what the settings say. -/
  | settings {pairs : List (String × String)} {path : String} :
      (∀ pair ∈ pairs, pair.1 ≠ "DEBUG") → settings.logPath = some path →
      SelectsPath settings pairs path

/-- An invocation with a session of its own, apart from the files. -/
structure Visit where
  session : Session
  offer : Offer
  about : String
  /-- How much room there is for the files then, if there is a limit. -/
  room : Option Nat := none
  /-- The answer to VERSION goes to no file. -/
  quiet : offer.encode.LeavesFiles

/-- The session that serves the invocation. -/
def Visit.start (visit : Visit) (files : Files) : Session :=
  { visit.session with files := { files with room := visit.room } }

/-- Serves the invocation with the recorder. -/
def Visit.run (visit : Visit) (files : Files) : Session.Dispatched :=
  (visit.start files).run plugin visit.offer visit.about

/-- The invocation opens a file at a location to log an entry to it: the recorder is called, the
settings and the extra arguments are well-formed, and the selected path is that of the file. -/
inductive Visit.Opens (visit : Visit) (files : Files) : Location → Entry → Prop
  | intro {action : Action} {invocation : Invocation} {settings : Settings}
      {pairs : List (String × String)} {path : String} {location : Location} {content : Bytes} :
      (visit.run files).call = some (action, invocation) →
      Settings.parse invocation.config = .ok settings → invocation.argPairs = .ok pairs →
      SelectsPath settings pairs path →
      (visit.start files).files.openPath path = .ok (.file location content) →
      Opens visit files location
        { command := action.name
          containerId := invocation.containerId
          netns := invocation.netns
          ifName := invocation.ifName
          args := invocation.args
          path := invocation.path
          stdin := Text.Utf8.lossyString invocation.config }

/-- The invocation is logged to a location: the file can be opened and the line can be written. -/
structure Visit.LogsTo (visit : Visit) (files : Files) (location : Location) (entry : Entry) :
    Prop where
  opened : visit.Opens files location entry
  fits : ∀ room, visit.room = some room → entry.line.length ≤ room

/-- The file can be opened, but there is only room for a first part of the line, and for nothing
behind that. -/
structure Visit.FallsShort (visit : Visit) (files : Files) (location : Location) (entry : Entry)
    (part : Bytes) : Prop where
  opened : visit.Opens files location entry
  shorter : ∃ rest, rest ≠ [] ∧ entry.line = part ++ rest
  room : visit.room = some part.length

/-- What the invocation stores at a location for an entry. -/
inductive Visit.Stores (visit : Visit) (files : Files) (location : Location) (entry : Entry) :
    Bytes → Prop
  | whole : visit.LogsTo files location entry → Stores visit files location entry entry.line
  | part {part : Bytes} : visit.FallsShort files location entry part →
      Stores visit files location entry part

/-- The files after some invocations. -/
def filesAfter (files : Files) : List Visit → Files
  | [] => files
  | visit :: visits => filesAfter (visit.run files).session.files visits

/-- The entries for which invocations store something at a location, and what they store, in
order. -/
inductive Journal (location : Location) : Files → List Visit → List (Entry × Bytes) → Prop
  | nil (files : Files) : Journal location files [] []
  | stored {files : Files} {visit : Visit} {visits : List Visit} {entry : Entry} {bytes : Bytes}
      {records : List (Entry × Bytes)} : visit.Stores files location entry bytes →
      Journal location (visit.run files).session.files visits records →
      Journal location files (visit :: visits) ((entry, bytes) :: records)
  | passed {files : Files} {visit : Visit} {visits : List Visit}
      {records : List (Entry × Bytes)} : (∀ entry, ¬ visit.Opens files location entry) →
      Journal location (visit.run files).session.files visits records →
      Journal location files (visit :: visits) records

end Recorder

/-! ## Appending to a file -/

namespace Files

theorem holds_of_openIn {files : Files} {here location : Location} {name : String}
    {content : Bytes} (h : files.openIn here name = .ok (.file location content)) :
    files.Holds location content := by
  unfold openIn at h
  split at h
  · cases h
  · split at h
    · cases h
    · split at h
      · next hf =>
        cases h
        exact .inl ⟨hf, rfl⟩
      · next hf =>
        cases h
        exact .inr hf
      · cases h
      · cases h

theorem holds_of_openPath {files : Files} {path : String} {location : Location} {content : Bytes}
    (h : files.openPath path = .ok (.file location content)) : files.Holds location content := by
  unfold openPath at h
  simp only at h
  iterate 3
    split at h
    · cases h
  split at h
  · cases h
  · split at h
    · cases h
    · exact holds_of_openIn h

/-- A file that is opened gets the bytes that fit. -/
theorem gains_of_append {files : Files} {path : String} {location : Location} {content : Bytes}
    (h : files.openPath path = .ok (.file location content)) (bytes : Bytes) :
    files.Gains (files.append path bytes).2 location
      (bytes.take (files.fitting bytes.length)) := by
  rw [append, h]
  exact
    { gained := ⟨content, holds_of_openPath h, find?_put_self _ _ _⟩
      elsewhere := fun _ hne => find?_put_of_ne _ hne _
      working := rfl }

theorem append_of_not_file {files : Files} {path : String}
    (h : ∀ location content, files.openPath path ≠ .ok (.file location content))
    (bytes : Bytes) : (files.append path bytes).2 = files := by
  unfold append
  split
  · rfl
  · rfl
  · next location content ho => exact absurd ho (h location content)

end Files

/-! ## One run -/

namespace Session

theorem files_of_report (session : Session) (result : Except Fault Unit) :
    (session.report result).files = session.files := by
  cases result with
  | ok _ => rfl
  | error fault => exact Conduct.files_of_perform (Conduct.leavesFiles_writeAndFlush _) _

/-- Without a call no file changes. -/
theorem files_of_not_called {session : Session} {plugin : Plugin} {offer : Offer} {about : String}
    (hquiet : offer.encode.LeavesFiles)
    (h : (session.dispatch plugin offer about).call = none) :
    (session.dispatch plugin offer about).session.files = session.files := by
  have hplan : (session.plan offer.support about).2.files = session.files :=
    congrArg Scene.files (scene_plan session offer.support about)
  cases hp : (session.plan offer.support about).1 with
  | error fault =>
    rw [dispatch_of_error hp]
    exact hplan
  | ok plan =>
    cases plan with
    | about =>
      rw [dispatch_of_plan hp]
      exact hplan
    | answer =>
      have hscene := (dispatch_of_answer hp plugin).2.2
      exact (congrArg Scene.files hscene).trans (Conduct.files_of_perform hquiet _)
    | call action invocation =>
      rw [(dispatch_of_call hp plugin).1] at h
      cases h

end Session

namespace Recorder

theorem logPath_eq_some_iff {settings : Settings} {pairs : List (String × String)}
    {path : String} : logPath settings pairs = some path ↔ SelectsPath settings pairs path := by
  constructor
  · intro h
    unfold logPath at h
    split at h
    · next pair hf =>
      obtain ⟨hdebug, before, after, hpairs, hbefore⟩ := List.find?_eq_some_iff_append.mp hf
      obtain ⟨key, value⟩ := pair
      simp only [decide_eq_true_eq] at hdebug
      cases h
      subst hdebug
      rw [hpairs]
      exact .debug fun pair hm => by simpa using hbefore pair hm
    · next hf =>
      refine .settings (fun pair hm => ?_) h
      simpa using List.find?_eq_none.mp hf pair hm
  · intro h
    unfold logPath
    cases h with
    | @debug before after path hbefore =>
      have hf : (before ++ ("DEBUG", path) :: after).find? (·.1 = "DEBUG") =
          some ("DEBUG", path) := by
        refine List.find?_eq_some_iff_append.mpr ⟨by simp, before, after, rfl, fun pair hm => ?_⟩
        simpa using hbefore pair hm
      simp only [hf]
    | settings hpairs hpath =>
      have hf : pairs.find? (·.1 = "DEBUG") = none :=
        List.find?_eq_none.mpr fun pair hm => by simpa using hpairs pair hm
      simp only [hf, hpath]

theorem leavesFiles_conclude (action : Action) (settings : Settings) :
    (conclude action settings).LeavesFiles := by
  unfold conclude
  split
  · trivial
  · cases action with
    | add =>
      intro failure
      cases failure <;> trivial
    | check => trivial
    | del => trivial

/-- However a logged invocation goes on, its line has been appended and nothing else. -/
theorem files_of_record (path : String) (invocation : Invocation) {rest : Conduct Outcome}
    (hrest : rest.LeavesFiles) (scene : Scene) :
    ((record (some path) invocation rest).perform scene).2.files =
      (scene.files.append path (Entry.ofInvocation invocation).line).2 := by
  rw [record, Conduct.perform]
  simp only
  cases (scene.files.append path (Entry.ofInvocation invocation).line).1 with
  | none => exact Conduct.files_of_perform hrest _
  | some fault => rfl

theorem files_of_handle_of_selects {action : Action} {invocation : Invocation}
    {settings : Settings} {pairs : List (String × String)} {path : String}
    (hsettings : Settings.parse invocation.config = .ok settings)
    (hpairs : invocation.argPairs = .ok pairs) (hpath : SelectsPath settings pairs path)
    (scene : Scene) :
    ((handle action invocation).perform scene).2.files =
      (scene.files.append path (Entry.ofInvocation invocation).line).2 := by
  have hhandle : handle action invocation =
      record (some path) invocation (conclude action settings) := by
    rw [handle]
    simp only [hsettings, hpairs, logPath_eq_some_iff.mpr hpath]
  rw [hhandle, files_of_record path invocation (leavesFiles_conclude action settings)]

/-- The recorder leaves the files alone, or it has selected a path and appends to it. -/
theorem files_of_handle (action : Action) (invocation : Invocation) (scene : Scene) :
    ((handle action invocation).perform scene).2.files = scene.files ∨
      ∃ settings pairs path, Settings.parse invocation.config = .ok settings ∧
        invocation.argPairs = .ok pairs ∧ SelectsPath settings pairs path ∧
        ((handle action invocation).perform scene).2.files =
          (scene.files.append path (Entry.ofInvocation invocation).line).2 := by
  cases hsettings : Settings.parse invocation.config with
  | error fault =>
    rw [handle, hsettings]
    exact .inl rfl
  | ok settings =>
    cases hpairs : invocation.argPairs with
    | error fault =>
      simp only [handle, hsettings, hpairs]
      exact .inl rfl
    | ok pairs =>
      cases hpath : logPath settings pairs with
      | none =>
        simp only [handle, hsettings, hpairs, hpath, record]
        exact .inl (Conduct.files_of_perform (leavesFiles_conclude action settings) scene)
      | some path =>
        have hselects := logPath_eq_some_iff.mp hpath
        exact .inr ⟨settings, pairs, path, rfl, rfl, hselects,
          files_of_handle_of_selects hsettings hpairs hselects scene⟩

/-! ## One invocation -/

namespace Visit

variable {visit : Visit} {files : Files} {location : Location} {entry : Entry}

/-- A call of the recorder decides about the files; a report comes after it. -/
theorem files_of_called {action : Action} {invocation : Invocation}
    (h : (visit.run files).call = some (action, invocation)) :
    (visit.run files).session.files =
      ((handle action invocation).perform (visit.start files).scene).2.files := by
  have hscene := (Session.dispatch_of_called h).2
  rw [run, Session.run]
  exact (Session.files_of_report _ _).trans (congrArg Scene.files hscene)

theorem files_of_not_called (h : (visit.run files).call = none) :
    (visit.run files).session.files = (visit.start files).files := by
  rw [run, Session.run]
  exact (Session.files_of_report _ _).trans (Session.files_of_not_called visit.quiet h)

/-- The entry of a call has the name of the operation for its command. -/
theorem ofInvocation_of_called {action : Action} {invocation : Invocation}
    (h : (visit.run files).call = some (action, invocation)) :
    Entry.ofInvocation invocation =
      { command := action.name
        containerId := invocation.containerId
        netns := invocation.netns
        ifName := invocation.ifName
        args := invocation.args
        path := invocation.path
        stdin := Text.Utf8.lossyString invocation.config } := by
  obtain ⟨parameters, config, -, -, rfl⟩ := Session.admits_of_call h
  rfl

/-- An invocation that opens a file adds to it what fits of its line. -/
theorem gains_of_opens (h : visit.Opens files location entry) :
    files.Gains (visit.run files).session.files location
      (entry.line.take ((visit.start files).files.fitting entry.line.length)) := by
  cases h with
  | intro hcall hsettings hpairs hpath hopen =>
    rw [files_of_called hcall, files_of_handle_of_selects hsettings hpairs hpath,
      ofInvocation_of_called hcall]
    -- The room has no part in where the files are and what they hold.
    obtain ⟨hgained, helsewhere, hworking⟩ := Files.gains_of_append hopen _
    exact ⟨hgained, helsewhere, hworking⟩

/-- Any other invocation changes no file. -/
theorem files_of_not_opens (h : ∀ location entry, ¬ visit.Opens files location entry) :
    (visit.run files).session.files = (visit.start files).files := by
  cases hcall : (visit.run files).call with
  | none => exact files_of_not_called hcall
  | some call =>
    obtain ⟨action, invocation⟩ := call
    rw [files_of_called hcall]
    rcases files_of_handle action invocation (visit.start files).scene with
      hkept | ⟨settings, pairs, path, hsettings, hpairs, hpath, happended⟩
    · exact hkept
    · rw [happended]
      refine Files.append_of_not_file (fun location content hopen => ?_) _
      exact h _ _ (.intro hcall hsettings hpairs hpath hopen)

/-- An invocation opens one file, to log one entry. -/
theorem opens_unique {other : Location} {entry' : Entry}
    (h : visit.Opens files location entry) (ho : visit.Opens files other entry') :
    location = other ∧ entry = entry' := by
  cases h with
  | intro hcall hsettings hpairs hpath hopen =>
    cases ho with
    | intro hcall' hsettings' hpairs' hpath' hopen' =>
      cases hcall.symm.trans hcall'
      cases hsettings.symm.trans hsettings'
      cases hpairs.symm.trans hpairs'
      rw [← logPath_eq_some_iff] at hpath hpath'
      cases hpath.symm.trans hpath'
      cases hopen.symm.trans hopen'
      exact ⟨rfl, rfl⟩

/-- A file that an invocation does not open stays as it is. -/
theorem find?_of_not_opens (h : ∀ entry, ¬ visit.Opens files location entry) :
    (visit.run files).session.files.find? location = files.find? location := by
  by_cases hopens : ∃ other entry, visit.Opens files other entry
  · obtain ⟨other, entry, hother⟩ := hopens
    have hne : location ≠ other := fun he => h entry (he ▸ hother)
    exact (gains_of_opens hother).elsewhere location hne
  · rw [files_of_not_opens fun other entry hother => hopens ⟨other, entry, hother⟩]
    rfl

/-! ### What is stored -/

theorem logsTo_of_unlimited (hroom : visit.room = none) (h : visit.Opens files location entry) :
    visit.LogsTo files location entry :=
  ⟨h, fun room hlimit => by rw [hroom] at hlimit; cases hlimit⟩

/-- An invocation that opens a file is logged or falls short. -/
theorem exists_stores (h : visit.Opens files location entry) :
    ∃ bytes, visit.Stores files location entry bytes := by
  cases hroom : visit.room with
  | none => exact ⟨_, .whole (logsTo_of_unlimited hroom h)⟩
  | some room =>
    by_cases hfits : entry.line.length ≤ room
    · exact ⟨_, .whole ⟨h, fun _ hlimit => Option.some.inj (hroom.symm.trans hlimit) ▸ hfits⟩⟩
    · have hshort : room < entry.line.length := Nat.not_le.mp hfits
      have hrest : entry.line.drop room ≠ [] := by simpa using hshort
      refine ⟨entry.line.take room, .part ⟨h, ⟨_, hrest, ?_⟩, ?_⟩⟩
      · exact (List.take_append_drop room entry.line).symm
      · rw [hroom, List.length_take, Nat.min_eq_left (Nat.le_of_lt hshort)]

theorem Stores.opened {bytes : Bytes} (h : visit.Stores files location entry bytes) :
    visit.Opens files location entry := by
  cases h with
  | whole hlogs => exact hlogs.opened
  | part hshort => exact hshort.opened

/-- What is stored is what fits. -/
theorem Stores.eq_take {bytes : Bytes} (h : visit.Stores files location entry bytes) :
    bytes = entry.line.take ((visit.start files).files.fitting entry.line.length) := by
  cases h with
  | whole hlogs =>
    cases hroom : visit.room with
    | none => rw [Files.fitting_of_unlimited hroom, List.take_length]
    | some room =>
      rw [Files.fitting_of_limited hroom, Nat.min_eq_left (hlogs.fits room hroom),
        List.take_length]
  | part hshort =>
    obtain ⟨rest, -, hline⟩ := hshort.shorter
    have hle : bytes.length ≤ (bytes ++ rest).length := by simp
    rw [Files.fitting_of_limited hshort.room, hline, Nat.min_eq_right hle, List.take_left]

theorem gains_of_stores {bytes : Bytes} (h : visit.Stores files location entry bytes) :
    files.Gains (visit.run files).session.files location bytes := by
  rw [h.eq_take]
  exact gains_of_opens h.opened

theorem stores_unique {entry' : Entry} {bytes bytes' : Bytes}
    (h : visit.Stores files location entry bytes)
    (ho : visit.Stores files location entry' bytes') : entry = entry' ∧ bytes = bytes' := by
  obtain ⟨-, rfl⟩ := opens_unique h.opened ho.opened
  exact ⟨rfl, h.eq_take.trans ho.eq_take.symm⟩

end Visit

/-! ## Any number of invocations -/

theorem exists_journal (location : Location) (files : Files) (visits : List Visit) :
    ∃ records, Journal location files visits records := by
  induction visits generalizing files with
  | nil => exact ⟨[], .nil files⟩
  | cons visit visits ih =>
    obtain ⟨records, hj⟩ := ih (visit.run files).session.files
    by_cases h : ∃ entry, visit.Opens files location entry
    · obtain ⟨entry, hopens⟩ := h
      obtain ⟨bytes, hstores⟩ := Visit.exists_stores hopens
      exact ⟨(entry, bytes) :: records, .stored hstores hj⟩
    · exact ⟨records, .passed (fun entry hopens => h ⟨entry, hopens⟩) hj⟩

theorem journal_unique {location : Location} {files : Files} {visits : List Visit}
    {records others : List (Entry × Bytes)} (h : Journal location files visits records)
    (ho : Journal location files visits others) : others = records := by
  induction h generalizing others with
  | nil files =>
    cases ho
    rfl
  | stored hstores _ ih =>
    cases ho with
    | stored hstores' hj =>
      obtain ⟨rfl, rfl⟩ := Visit.stores_unique hstores hstores'
      rw [ih hj]
    | passed hnot hj => exact absurd hstores.opened (hnot _)
  | passed hnot _ ih =>
    cases ho with
    | stored hstores hj => exact absurd hstores.opened (hnot _)
    | passed _ hj => exact ih hj

/-- Without a limit every line is stored as a whole. -/
theorem whole_of_unlimited {location : Location} {files : Files} {visits : List Visit}
    {records : List (Entry × Bytes)} (h : Journal location files visits records)
    (hroom : ∀ visit ∈ visits, visit.room = none) :
    ∀ record ∈ records, record.2 = record.1.line := by
  induction h with
  | nil files => exact fun record hmem => absurd hmem List.not_mem_nil
  | stored hstores _ ih =>
    obtain ⟨hfirst, hrest⟩ := List.forall_mem_cons.mp hroom
    refine List.forall_mem_cons.mpr ⟨?_, ih hrest⟩
    cases hstores with
    | whole hlogs => rfl
    | part hshort =>
      rw [hshort.room] at hfirst
      cases hfirst
  | passed _ _ ih => exact ih (List.forall_mem_cons.mp hroom).2

/-- A file gets what is stored behind what it held, and is created for the first record. -/
theorem find?_of_journal {location : Location} {files : Files} {visits : List Visit}
    {records : List (Entry × Bytes)} (h : Journal location files visits records) :
    records = [] ∧ (filesAfter files visits).find? location = files.find? location ∨
      records ≠ [] ∧ ∃ old, files.Holds location old ∧
        (filesAfter files visits).find? location =
          some (.file (old ++ records.flatMap (·.2))) := by
  induction h with
  | nil files => exact .inl ⟨rfl, rfl⟩
  | passed hnot _ ih =>
    simp only [Files.Holds, Visit.find?_of_not_opens hnot] at ih
    exact ih
  | @stored files visit visits entry bytes records hstores _ ih =>
    obtain ⟨old, hold, hnew⟩ := (Visit.gains_of_stores hstores).gained
    refine .inr ⟨List.cons_ne_nil _ _, old, hold, ?_⟩
    rw [filesAfter, List.flatMap_cons, ← List.append_assoc]
    rcases ih with ⟨rfl, hkept⟩ | ⟨-, other, hother, hgrown⟩
    · rw [hkept, hnew, List.flatMap_nil, List.append_nil]
    · rw [Files.Holds, hnew] at hother
      rcases hother with ⟨habsent, -⟩ | hheld
      · cases habsent
      · cases hheld
        exact hgrown

/-- Lines that are stored as a whole are split into the entries. -/
theorem split_of_whole {records : List (Entry × Bytes)}
    (h : ∀ record ∈ records, record.2 = record.1.line) :
    Text.split 0x0A (records.flatMap (·.2)) =
      records.map (·.1.toJson.compact) ++ [[]] := by
  have hlines : records.flatMap (·.2) = Entry.lines (records.map (·.1)) := by
    rw [Entry.lines, List.flatMap_map, List.flatMap_def, List.flatMap_def,
      List.map_congr_left h]
  rw [hlines, Entry.split_lines, List.map_map]
  rfl

/-- Each invocation that is logged adds one line to one file, from which its entry is read back; one
that falls short adds a first part of its line to one file; and each other one changes no file.
Any number of invocations have one journal for a file, and the file has what is stored for its
records behind what it held before, which is the whole lines if the room has no limit.  If there was
no such file before, and the lines are whole, then what there is then is split at its line feeds
into one text for each record, from which its entry is read. -/
theorem faithful_journal :
    (∀ (visit : Visit) (files : Files),
      (∀ location entry, visit.LogsTo files location entry →
        files.Gains (visit.run files).session.files location entry.line ∧
        ∃ text, entry.line = text ++ [0x0A] ∧ 0x0A ∉ text ∧ Entry.read text = .ok entry) ∧
      (∀ location entry part, visit.FallsShort files location entry part →
        files.Gains (visit.run files).session.files location part) ∧
      ((∀ location entry, ¬ visit.LogsTo files location entry) →
        (∀ location entry part, ¬ visit.FallsShort files location entry part) →
        (visit.run files).session.files = { files with room := visit.room })) ∧
    ∀ (location : Location) (files : Files) (visits : List Visit), ∃ records,
      (∀ others, Journal location files visits others ↔ others = records) ∧
      (records = [] → (filesAfter files visits).find? location = files.find? location) ∧
      (records ≠ [] → ∃ old, files.Holds location old ∧
        (filesAfter files visits).find? location =
          some (.file (old ++ records.flatMap (·.2)))) ∧
      ((∀ visit ∈ visits, visit.room = none) → ∀ record ∈ records, record.2 = record.1.line) ∧
      ∀ content, files.find? location = none →
        (filesAfter files visits).find? location = some (.file content) →
        (∀ record ∈ records, record.2 = record.1.line) →
        ∃ texts, Text.split 0x0A content = texts ++ [[]] ∧
          texts.map Entry.read = records.map (.ok ·.1) := by
  refine ⟨fun visit files => ⟨fun location entry hlogs => ?_, fun location entry part hshort =>
    Visit.gains_of_stores (.part hshort), fun hlogs hshort => ?_⟩, fun location files visits => ?_⟩
  · exact ⟨Visit.gains_of_stores (.whole hlogs), _, rfl, entry.lineFeed_not_mem_compact,
      entry.read_compact⟩
  · refine Visit.files_of_not_opens fun location entry hopens => ?_
    obtain ⟨bytes, hstores⟩ := Visit.exists_stores hopens
    cases hstores with
    | whole h => exact hlogs _ _ h
    | part h => exact hshort _ _ _ h
  · obtain ⟨records, hj⟩ := exists_journal location files visits
    have hfile := find?_of_journal hj
    have honly : ∀ others, Journal location files visits others ↔ others = records :=
      fun others => ⟨journal_unique hj, fun he => he ▸ hj⟩
    refine ⟨records, honly, fun hnone => ?_, fun hsome => ?_, whole_of_unlimited hj,
      fun content habsent hcontent hwhole => ?_⟩
    · rcases hfile with ⟨-, hkept⟩ | ⟨hne, -⟩
      · exact hkept
      · exact absurd hnone hne
    · rcases hfile with ⟨hnone, -⟩ | ⟨-, hgrown⟩
      · exact absurd hnone hsome
      · exact hgrown
    · rcases hfile with ⟨-, hkept⟩ | ⟨-, old, hold, hgrown⟩
      · rw [hkept, habsent] at hcontent
        cases hcontent
      · rw [Files.Holds, habsent] at hold
        rcases hold with ⟨-, rfl⟩ | hheld
        · rw [hcontent, List.nil_append] at hgrown
          cases hgrown
          exact ⟨_, split_of_whole hwhole, by simp [Entry.read_compact]⟩
        · cases hheld

/-- An attachment that is logged to a path among the extra arguments, and whose result cannot be
printed. -/
def attaching : Visit where
  session :=
    { environment := .ofList
        [("CNI_COMMAND", Text.Utf8.ofString "ADD"), ("CNI_CONTAINERID", Text.Utf8.ofString "c"),
         ("CNI_NETNS", Text.Utf8.ofString "n"), ("CNI_IFNAME", Text.Utf8.ofString "e"),
         ("CNI_ARGS", Text.Utf8.ofString "DEBUG=log"), ("CNI_PATH", Text.Utf8.ofString "/bin")]
      input := [.bytes (Text.Utf8.ofString "\x7b\"name\":\"n\",\"cniVersion\":\"0.4.0\"\x7d")]
      output := { limit := some 0 } }
  offer := Support.offer ⟨["0.4.0"]⟩
  about := ""
  quiet := Conduct.leavesFiles_writeAndFlush _

/-- A deletion that is logged to a path in the settings, and ends with the error they ask for. -/
def releasing : Visit where
  session :=
    { environment := .ofList
        [("CNI_COMMAND", Text.Utf8.ofString "DEL"), ("CNI_CONTAINERID", Text.Utf8.ofString "c"),
         ("CNI_IFNAME", Text.Utf8.ofString "e"), ("CNI_PATH", Text.Utf8.ofString "/bin")]
      input := [.bytes (Text.Utf8.ofString ("\x7b\"name\":\"n\",\"cniVersion\":\"0.4.0\"," ++
        "\"reportError\":\"a\\nb\",\"commandLog\":\"./log\"\x7d"))] }
  offer := Support.offer ⟨["0.4.0"]⟩
  about := ""
  quiet := Conduct.leavesFiles_writeAndFlush _

/-- The entry of the attachment. -/
def attached : Entry :=
  ⟨"ADD", "c", "n", "e", "DEBUG=log", "/bin", "\x7b\"name\":\"n\",\"cniVersion\":\"0.4.0\"\x7d"⟩

/-- The entry of the deletion. -/
def released : Entry :=
  ⟨"DEL", "c", "", "e", "", "/bin", "\x7b\"name\":\"n\",\"cniVersion\":\"0.4.0\"," ++
    "\"reportError\":\"a\\nb\",\"commandLog\":\"./log\"\x7d"⟩

theorem attaching_releasing_journal :
    ({} : Files).find? ["log"] = none ∧
      (filesAfter {} [attaching, releasing]).find? ["log"] =
        some (.file (Entry.lines [attached, released])) ∧
      Journal ["log"] {} [attaching, releasing]
        [(attached, attached.line), (released, released.line)] := by
  have habsent : ({} : Files).find? ["log"] = none := by decide
  have hcontent : (filesAfter {} [attaching, releasing]).find? ["log"] =
      some (.file (Entry.lines [attached, released])) := by decide +kernel
  have hroom : ∀ visit ∈ [attaching, releasing], visit.room = none := by
    simp [attaching, releasing]
  obtain ⟨records, honly, -, -, hunlimited, hsplit⟩ :=
    faithful_journal.2 ["log"] {} [attaching, releasing]
  have hwhole := hunlimited hroom
  obtain ⟨texts, htexts, hread⟩ := hsplit _ habsent hcontent hwhole
  rw [Entry.split_lines] at htexts
  rw [← List.append_cancel_right htexts, List.map_map] at hread
  have hentries : [attached, released].map Except.ok =
      ((records.map (·.1)).map Except.ok : List (Except Json.ReadError Entry)) := by
    rw [List.map_map]
    refine Eq.trans ?_ hread
    exact List.map_congr_left fun entry _ => (entry.read_compact).symm
  rw [List.map_inj_right fun _ _ => Except.ok.inj] at hentries
  have hrecords : (records.map (·.1)).map (fun entry => (entry, entry.line)) = records := by
    rw [List.map_map]
    refine (List.map_congr_left fun record hmem => ?_).trans (List.map_id records)
    exact Prod.ext rfl (hwhole record hmem).symm
  rw [← hentries] at hrecords
  exact ⟨habsent, hcontent, (honly _).mpr hrecords⟩

/-- A line that does not fit is stored in part, in a file that has been created for it. -/
example : (({ attaching with room := some 3 } : Visit).run {}).session.files.find? ["log"] =
    some (.file (attached.line.take 3)) := by decide +kernel

end Recorder
end CniPlugin
