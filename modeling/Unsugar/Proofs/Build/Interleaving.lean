import Mathlib.Data.List.Lex
import Unsugar.Proofs.Build.CacheTransparency

open List

namespace Unsugar

/-! # Files lowered at the same time

The files of a build may be lowered at the same time over one cache: each looks
its text up, is lowered if nothing is found, and notes the text it was lowered to.
However these steps follow each other, every file is reported as it would be if
the files were lowered one after the other.  Files with different paths do not
meet in the cache at all, so then everything is the same, down to which files
were served from the cache and what is kept for the next build.
-/

/-! ## Steps -/

variable {file : SourceFile} {lowered text : String} {work : Work}

/-- How far the lowering of a file has come. -/
inductive Stage where
  | waiting
  | missed
  /-- The file was lowered, and the cache does not know yet. -/
  | lowered (text : String)
  | done (result : Except FileError LoweredFile)
  deriving DecidableEq

/-- A file and how far it has come. -/
structure Job where
  file : SourceFile
  stage : Stage := .waiting

/-- Files that are lowered at the same time over one cache. -/
structure Work where
  jobs : List Job
  cache : BuildCache

namespace FrontEnd

variable (frontEnd : FrontEnd)

/-- The next step of a file: look it up, lower it, or note what it was lowered to. -/
def advance (job : Job) : StateM BuildCache Job := fun cache =>
  let file := job.file
  let content := Digest.ofText file.text
  match job.stage with
  | .waiting =>
    match cache.lookup file.path content with
    | some text => (⟨file, .done (.ok ⟨file.path, text, true⟩)⟩, cache)
    | none => (⟨file, .missed⟩, cache)
  | .missed =>
    match frontEnd.lowerSource file with
    | .error error => (⟨file, .done (.error error)⟩, cache)
    | .ok text => (⟨file, .lowered text⟩, cache)
  | .lowered text =>
    (⟨file, .done (.ok ⟨file.path, text, false⟩)⟩, cache.insert file.path content text)
  | .done result => (⟨file, .done result⟩, cache)

/-- The job at an index takes its next step. -/
def turn : Nat → List Job → StateM BuildCache (List Job)
  | _, [] => return []
  | 0, job :: rest => do
    let job ← frontEnd.advance job
    return job :: rest
  | index + 1, job :: rest => do
    let rest ← turn index rest
    return job :: rest

/-- Jobs take their steps in the order of a schedule. -/
def interleave : List Nat → Work → Work
  | [], work => work
  | index :: schedule, work =>
    let (jobs, cache) := frontEnd.turn index work.jobs work.cache
    interleave schedule ⟨jobs, cache⟩

end FrontEnd

def Work.start (files : List SourceFile) (cache : BuildCache) : Work :=
  ⟨files.map fun file => { file }, cache⟩

def Work.Finished (work : Work) (results : List (Except FileError LoweredFile)) : Prop :=
  work.jobs.map Job.stage = results.map Stage.done

/-- What a result says, wherever it came from. -/
def outputOf (result : Except FileError LoweredFile) : Except FileError (Path × String) :=
  result.map fun lowered => (lowered.path, lowered.text)

namespace FrontEnd

variable {frontEnd : FrontEnd}

theorem advance_file (job : Job) (cache : BuildCache) :
    (frontEnd.advance job cache).1.file = job.file := by
  unfold advance
  cases job.stage with
  | waiting =>
    dsimp only
    split <;> rfl
  | missed =>
    dsimp only
    split <;> rfl
  | lowered text => rfl
  | done result => rfl

end FrontEnd

/-! ## What every step keeps -/

def ToldApart (texts : List String) : Prop :=
  ∀ left ∈ texts, ∀ right ∈ texts, Digest.ofText left = Digest.ofText right → left = right

def BuildCache.Records (frontEnd : FrontEnd) (texts : List String) (cache : BuildCache) : Prop :=
  ∀ path entry, (path, entry) ∈ cache.entries.entries →
    ∃ text ∈ texts, Digest.ofText text = entry.content ∧ frontEnd.lowerText text = .ok entry.lowered

def Job.Sound (frontEnd : FrontEnd) (job : Job) : Prop :=
  match job.stage with
  | .waiting | .missed => True
  | .lowered text => frontEnd.lowerText job.file.text = .ok text
  | .done result => Reports frontEnd job.file result

variable {results : List (Except FileError LoweredFile)} {result : Except FileError LoweredFile}

section Sound

variable {frontEnd : FrontEnd} {texts : List String} {cache : BuildCache} {job : Job}

theorem BuildCache.Records.lookup (apart : ToldApart texts)
    (records : cache.Records frontEnd texts) (listed : file.text ∈ texts)
    (found : cache.lookup file.path (Digest.ofText file.text) = some lowered) :
    frontEnd.lowerText file.text = .ok lowered := by
  unfold BuildCache.lookup at found
  split at found
  · rename_i entry located
    split at found
    · rename_i sameContent
      cases found
      obtain ⟨written, present⟩ := PathMap.mem_of_find? located
      obtain ⟨text, isText, content, ok⟩ := records written entry present
      have same : text = file.text := apart text isText file.text listed (content.trans sameContent)
      rw [← same]
      exact ok
    · cases found
  · cases found

theorem BuildCache.Records.insert
    (records : cache.Records frontEnd texts) (listed : file.text ∈ texts)
    (ok : frontEnd.lowerText file.text = .ok lowered) :
    (cache.insert file.path (Digest.ofText file.text) lowered).Records frontEnd texts := by
  intro path entry present
  rcases mem_insertEntry present with old | ⟨rfl, _⟩
  · exact records path entry old
  · exact ⟨file.text, listed, rfl, ok⟩

theorem FrontEnd.advance_sound (apart : ToldApart texts) (listed : job.file.text ∈ texts)
    (records : cache.Records frontEnd texts) (sound : job.Sound frontEnd) :
    (frontEnd.advance job cache).1.Sound frontEnd ∧
      (frontEnd.advance job cache).2.Records frontEnd texts := by
  obtain ⟨file, stage⟩ := job
  cases stage with
  | waiting =>
    unfold FrontEnd.advance
    dsimp only
    split
    · rename_i lowered found
      have ok := records.lookup apart listed found
      exact ⟨by simp [Job.Sound, Reports, FrontEnd.lowerSource_ok ok, Except.map], records⟩
    · exact ⟨trivial, records⟩
  | missed =>
    unfold FrontEnd.advance
    dsimp only
    split
    · rename_i failed
      exact ⟨by simp [Job.Sound, Reports, failed, Except.map], records⟩
    · rename_i succeeded
      exact ⟨FrontEnd.lowerText_ok succeeded, records⟩
  | lowered text =>
    have ok : frontEnd.lowerText file.text = .ok text := sound
    exact ⟨by simp [FrontEnd.advance, Job.Sound, Reports, FrontEnd.lowerSource_ok ok, Except.map],
      records.insert listed ok⟩
  | done result => exact ⟨sound, records⟩

def SoundJobs (frontEnd : FrontEnd) (files : List SourceFile) (jobs : List Job) : Prop :=
  Forall₂ (fun file job => job.file = file ∧ job.Sound frontEnd) files jobs

variable {files : List SourceFile}

theorem FrontEnd.turn_sound {jobs : List Job} (apart : ToldApart texts)
    (listed : ∀ file ∈ files, file.text ∈ texts) (records : cache.Records frontEnd texts)
    (sound : SoundJobs frontEnd files jobs) (index : Nat) :
    SoundJobs frontEnd files (frontEnd.turn index jobs cache).1 ∧
      (frontEnd.turn index jobs cache).2.Records frontEnd texts := by
  induction sound generalizing index with
  | nil =>
    cases index with
    | zero => exact ⟨.nil, records⟩
    | succ index => exact ⟨.nil, records⟩
  | cons head tail ih =>
    obtain ⟨rfl, isSound⟩ := head
    cases index with
    | zero =>
      obtain ⟨stepped, kept⟩ :=
        FrontEnd.advance_sound apart (listed _ mem_cons_self) records isSound
      exact ⟨.cons ⟨FrontEnd.advance_file _ _, stepped⟩ tail, kept⟩
    | succ index =>
      obtain ⟨others, kept⟩ := ih
        (fun file isLater => listed file (mem_cons_of_mem _ isLater)) index
      exact ⟨.cons ⟨rfl, isSound⟩ others, kept⟩

theorem FrontEnd.interleave_sound (apart : ToldApart texts)
    (listed : ∀ file ∈ files, file.text ∈ texts) (records : work.cache.Records frontEnd texts)
    (sound : SoundJobs frontEnd files work.jobs) (schedule : List Nat) :
    SoundJobs frontEnd files (frontEnd.interleave schedule work).jobs := by
  induction schedule generalizing work with
  | nil => exact sound
  | cons index rest ih =>
    obtain ⟨stepped, kept⟩ := FrontEnd.turn_sound apart listed records sound index
    exact @ih ⟨_, _⟩ kept stepped

theorem SoundJobs.outputs (sound : SoundJobs frontEnd files work.jobs)
    (finished : work.Finished results) :
    results.map outputOf =
      files.map fun file => (frontEnd.lowerSource file).map fun text => (file.path, text) := by
  obtain ⟨jobs, cache⟩ := work
  change Forall₂ _ files jobs at sound
  change jobs.map Job.stage = _ at finished
  induction sound generalizing results with
  | nil =>
    have none : results = [] := by simpa using finished
    rw [none]
    rfl
  | cons head tail ih =>
    obtain ⟨rfl, isSound⟩ := head
    cases results with
    | nil => simp at finished
    | cons result others =>
      obtain ⟨isDone, areDone⟩ := List.cons.inj finished
      unfold Job.Sound at isSound
      rw [isDone] at isSound
      rw [map_cons, map_cons, ih areDone]
      exact congrArg (· :: _) isSound

end Sound

/-! ## One file after the other -/

section Finishing

variable {frontEnd : FrontEnd}

def FrontEnd.finish (frontEnd : FrontEnd) (job : Job) : StateM BuildCache Job := do
  frontEnd.advance (← frontEnd.advance (← frontEnd.advance job))

def FrontEnd.finishAll (frontEnd : FrontEnd) : List Job → StateM BuildCache (List Job)
  | [] => return []
  | job :: rest => do
    let job ← frontEnd.finish job
    let rest ← frontEnd.finishAll rest
    return job :: rest

theorem FrontEnd.finish_eq {job : Job} {cache : BuildCache} : frontEnd.finish job cache =
      let first := frontEnd.advance job cache
      let second := frontEnd.advance first.1 first.2
      frontEnd.advance second.1 second.2 := rfl

theorem FrontEnd.finish_waiting (file : SourceFile) (cache : BuildCache) :
    frontEnd.finish { file } cache =
      (⟨file, .done (frontEnd.lowerFile cache file).1⟩, (frontEnd.lowerFile cache file).2) := by
  rw [finish_eq]
  unfold FrontEnd.lowerFile
  cases found : cache.lookup file.path (Digest.ofText file.text) with
  | some text => simp [advance, found]
  | none =>
    cases lowered : frontEnd.lowerSource file with
    | error error => simp [advance, found, lowered]
    | ok text => simp [advance, found, lowered]

theorem FrontEnd.finish_isDone {job : Job} {cache : BuildCache} :
    ∃ result, (frontEnd.finish job cache).1.stage = .done result := by
  obtain ⟨file, stage⟩ := job
  cases stage with
  | waiting => exact ⟨_, congrArg (·.1.stage) (finish_waiting file cache)⟩
  | missed =>
    rw [finish_eq]
    cases lowered : frontEnd.lowerSource file with
    | error error => simp [advance, lowered]
    | ok text => simp [advance, lowered]
  | lowered text => exact ⟨_, rfl⟩
  | done result => exact ⟨_, rfl⟩

theorem FrontEnd.advance_of_done {job : Job} (isDone : job.stage = .done result) :
    frontEnd.advance job = pure job := by
  obtain ⟨file, stage⟩ := job
  subst isDone
  rfl

theorem FrontEnd.finish_of_done {job : Job} (isDone : job.stage = .done result) :
    frontEnd.finish job = pure job := by
  obtain ⟨file, stage⟩ := job
  subst isDone
  rfl

/-- It does not matter whether a job has taken its next step when it is finished. -/
theorem FrontEnd.finish_advance {job : Job} :
    (do frontEnd.finish (← frontEnd.advance job)) = frontEnd.finish job := by
  funext cache
  change frontEnd.advance (frontEnd.finish job cache).1 (frontEnd.finish job cache).2 = _
  obtain ⟨result, isDone⟩ := frontEnd.finish_isDone
  rw [advance_of_done isDone]
  rfl

theorem FrontEnd.finishAll_start (files : List SourceFile) (cache : BuildCache) :
    (frontEnd.finishAll (Work.start files cache).jobs cache).1.map Job.stage =
        (frontEnd.lowerFiles cache files).1.map Stage.done ∧
      (frontEnd.finishAll (Work.start files cache).jobs cache).2 =
        (frontEnd.lowerFiles cache files).2 := by
  induction files generalizing cache with
  | nil => exact ⟨rfl, rfl⟩
  | cons file rest ih =>
    have finished : frontEnd.finishAll (Work.start (file :: rest) cache).jobs cache =
        (let first := frontEnd.finish { file } cache
        let others := frontEnd.finishAll (Work.start rest cache).jobs first.2
        (first.1 :: others.1, others.2)) := rfl
    rw [finished, finish_waiting]
    obtain ⟨stages, kept⟩ := ih (frontEnd.lowerFile cache file).2
    exact ⟨congrArg (Stage.done _ :: ·) stages, kept⟩

theorem FrontEnd.exists_schedule {jobs : List Job} :
    ∃ schedule, ∀ cache, frontEnd.interleave schedule ⟨jobs, cache⟩ =
      ⟨(frontEnd.finishAll jobs cache).1, (frontEnd.finishAll jobs cache).2⟩ := by
  -- turns of the jobs behind the first leave the first alone
  have behind (job : Job) (rest : List Job) (schedule : List Nat) (cache : BuildCache) :
      frontEnd.interleave (schedule.map (· + 1)) ⟨job :: rest, cache⟩ =
        ⟨job :: (frontEnd.interleave schedule ⟨rest, cache⟩).jobs,
          (frontEnd.interleave schedule ⟨rest, cache⟩).cache⟩ := by
    induction schedule generalizing rest cache with
    | nil => rfl
    | cons index schedule ih => exact ih _ _
  induction jobs with
  | nil => exact ⟨[], fun _ => rfl⟩
  | cons job rest ih =>
    obtain ⟨schedule, finishes⟩ := ih
    refine ⟨0 :: 0 :: 0 :: schedule.map (· + 1), fun cache => ?_⟩
    change frontEnd.interleave (schedule.map (· + 1))
      ⟨(frontEnd.finish job cache).1 :: rest, (frontEnd.finish job cache).2⟩ = _
    rw [behind, finishes]
    rfl

end Finishing

/-! ## Steps of different files

Two files with different paths read and write different entries, so their steps
can change places.
-/

section Entries

variable {α : Type} {path other first : Path} {value entry old : α} {entries rest : List (Path × α)}

theorem insertEntry_before (before : path.key < first.key) :
    insertEntry path value ((first, old) :: rest) = (path, value) :: (first, old) :: rest :=
  if_pos before

theorem insertEntry_same (same : path.key = first.key) :
    insertEntry path value ((first, old) :: rest) = (first, value) :: rest := by
  simp [insertEntry, same]

theorem insertEntry_after (after : first.key < path.key) :
    insertEntry path value ((first, old) :: rest) =
      (first, old) :: insertEntry path value rest := by
  simp [insertEntry, after.ne', not_lt_of_gt after]

theorem find?_insertEntry (different : path.key ≠ other.key) :
    (insertEntry path value entries).find? (·.1.key == other.key) =
      entries.find? (·.1.key == other.key) := by
  induction entries with
  | nil => simp [insertEntry, different]
  | cons head rest ih =>
    obtain ⟨first, old⟩ := head
    rcases lt_trichotomy path.key first.key with before | same | after
    · simp [insertEntry_before before, different]
    · simp [insertEntry_same same, ← same, different]
    · simp [insertEntry_after after, find?_cons, ih]

theorem insertEntry_comm_of_lt (before : path.key < other.key) :
    insertEntry path value (insertEntry other entry entries) =
      insertEntry other entry (insertEntry path value entries) := by
  induction entries with
  | nil => simp [insertEntry, before, before.ne', not_lt_of_gt before]
  | cons head rest ih =>
    obtain ⟨first, old⟩ := head
    rcases lt_trichotomy path.key first.key with pathBefore | pathSame | pathAfter
    · rcases lt_trichotomy other.key first.key with otherBefore | otherSame | otherAfter
      · simp [insertEntry_before, insertEntry_after, *]
      · simp [insertEntry_before, insertEntry_same, insertEntry_after, *]
      · simp [insertEntry_before, insertEntry_after, *]
    · have otherAfter : first.key < other.key := pathSame ▸ before
      simp [insertEntry_same, insertEntry_after, *]
    · have otherAfter : first.key < other.key := pathAfter.trans before
      simp [insertEntry_after, *]

theorem PathMap.insert_comm (map : PathMap α) (different : path.key ≠ other.key) :
    (map.insert path value).insert other entry = (map.insert other entry).insert path value := by
  obtain ⟨entries, sorted⟩ := map
  have same : insertEntry other entry (insertEntry path value entries) =
      insertEntry path value (insertEntry other entry entries) := by
    rcases lt_or_gt_of_ne different with before | after
    · exact (insertEntry_comm_of_lt before).symm
    · exact insertEntry_comm_of_lt after
  simp only [PathMap.insert, same]

theorem PathMap.find?_insert (map : PathMap α) (different : path.key ≠ other.key) :
    (map.insert path value).find? other = map.find? other :=
  congrArg (Option.map Prod.snd) (find?_insertEntry different)

end Entries

/-- Two actions that can change places, whatever comes after them. -/
def Independent {σ α β : Type} (first : StateM σ α) (second : StateM σ β) : Prop :=
  ∀ (γ : Type) (next : α → β → StateM σ γ),
    (do next (← first) (← second)) = (do
      let value ← second
      next (← first) value)

namespace Independent

variable {σ α β γ : Type} {first : StateM σ α} {second : StateM σ β}

theorem symm (independent : Independent first second) : Independent second first :=
  fun _ next => (independent _ fun value other => next other value).symm

theorem pure (value : α) : Independent (Pure.pure value) second := fun _ _ => rfl

theorem bind {rest : α → StateM σ γ} {known : α → Prop} (independent : Independent first second)
    (isKnown : ∀ state, known (first state).1)
    (follows : ∀ value, known value → Independent (rest value) second) :
    Independent (first >>= rest) second := by
  intro δ next
  funext state
  have later := congrFun (follows (first state).1 (isKnown state) δ next) (first state).2
  have earlier := congrFun
    (independent δ fun value other => rest value >>= fun result => next result other) state
  exact later.trans earlier

theorem map (independent : Independent first second) (build : α → γ) :
    Independent (first >>= fun value => Pure.pure (build value)) second :=
  @bind σ α β γ first second (fun value => Pure.pure (build value)) (fun _ => True) independent
    (fun _ => trivial) fun value _ => pure (build value)

end Independent

section Steps

variable {frontEnd : FrontEnd} {job other : Job}

theorem BuildCache.lookup_insert {path file : Path} {content found : Digest}
    (cache : BuildCache) (different : path.key ≠ file.key) :
    (cache.insert path content text).lookup file found = cache.lookup file found := by
  unfold BuildCache.lookup BuildCache.insert
  rw [PathMap.find?_insert _ different]

theorem FrontEnd.advance_cases {job : Job} : (∀ cache, (frontEnd.advance job cache).2 = cache) ∨
      ∃ stepped text, ∀ cache, frontEnd.advance job cache =
        (stepped, cache.insert job.file.path (Digest.ofText job.file.text) text) := by
  obtain ⟨file, stage⟩ := job
  cases stage with
  | waiting =>
    refine .inl fun cache => ?_
    unfold advance
    dsimp only
    split <;> rfl
  | missed =>
    refine .inl fun cache => ?_
    unfold advance
    dsimp only
    split <;> rfl
  | lowered text => exact .inr ⟨_, text, fun _ => rfl⟩
  | done result => exact .inl fun _ => rfl

theorem FrontEnd.advance_insert {path : Path} (different : path.key ≠ job.file.path.key)
    {cache : BuildCache} {content : Digest} :
    frontEnd.advance job (cache.insert path content text) =
      ((frontEnd.advance job cache).1, (frontEnd.advance job cache).2.insert path content text) := by
  obtain ⟨file, stage⟩ := job
  cases stage with
  | waiting =>
    unfold advance
    dsimp only
    rw [BuildCache.lookup_insert cache different]
    cases cache.lookup file.path (Digest.ofText file.text) <;> rfl
  | missed =>
    unfold advance
    dsimp only
    cases frontEnd.lowerSource file <;> rfl
  | lowered found =>
    unfold advance BuildCache.insert
    dsimp only
    rw [PathMap.insert_comm _ different]
  | done result => rfl

theorem FrontEnd.advance_independent (different : job.file.path.key ≠ other.file.path.key) :
    Independent (frontEnd.advance job) (frontEnd.advance other) := by
  intro γ next
  funext cache
  change next (frontEnd.advance job cache).1
      (frontEnd.advance other (frontEnd.advance job cache).2).1
      (frontEnd.advance other (frontEnd.advance job cache).2).2 =
    next (frontEnd.advance job (frontEnd.advance other cache).2).1
      (frontEnd.advance other cache).1 (frontEnd.advance job (frontEnd.advance other cache).2).2
  rcases frontEnd.advance_cases with reads | ⟨stepped, text, writes⟩
  · rcases frontEnd.advance_cases with alsoReads | ⟨otherStepped, otherText, alsoWrites⟩
    · rw [reads cache, alsoReads cache, reads cache]
    · rw [reads cache, alsoWrites cache, frontEnd.advance_insert different.symm, reads cache]
  · rw [writes cache, frontEnd.advance_insert different, writes]

theorem FrontEnd.finish_independent (different : job.file.path.key ≠ other.file.path.key) :
    Independent (frontEnd.finish job) (frontEnd.advance other) := by
  have again (stepped : Job) (same : stepped.file = job.file) :
      Independent (frontEnd.advance stepped) (frontEnd.advance other) :=
    advance_independent (same ▸ different)
  have twice (stepped : Job) (same : stepped.file = job.file) :
      Independent (frontEnd.advance stepped >>= frontEnd.advance) (frontEnd.advance other) :=
    (again stepped same).bind (fun cache => (advance_file stepped cache).trans same) again
  exact (again job rfl).bind (advance_file job) twice

theorem FrontEnd.turn_independent {others : List Job}
    (different : ∀ other ∈ others, job.file.path.key ≠ other.file.path.key) (index : Nat) :
    Independent (frontEnd.turn index others) (frontEnd.finish job) := by
  induction others generalizing index with
  | nil => cases index <;> exact .pure _
  | cons other rest ih =>
    cases index with
    | zero => exact (finish_independent (different other mem_cons_self)).symm.map _
    | succ index =>
      exact (ih (fun later isLater => different later (mem_cons_of_mem _ isLater)) index).map _

end Steps

/-! ## Every interleaving -/

section Interleavings

variable {frontEnd : FrontEnd} {jobs : List Job}

def DifferentPaths (jobs : List Job) : Prop := (jobs.map fun job => job.file.path.key).Nodup

theorem FrontEnd.turn_files (index : Nat) (jobs : List Job) (cache : BuildCache) :
    (frontEnd.turn index jobs cache).1.map Job.file = jobs.map Job.file := by
  induction jobs generalizing index cache with
  | nil => cases index <;> rfl
  | cons job rest ih =>
    cases index with
    | zero => exact congrArg (· :: _) (advance_file job cache)
    | succ index => exact congrArg (_ :: ·) (ih index cache)

theorem FrontEnd.finishAll_turn (different : DifferentPaths jobs) (index : Nat) :
    (do frontEnd.finishAll (← frontEnd.turn index jobs)) = frontEnd.finishAll jobs := by
  induction jobs generalizing index with
  | nil => cases index <;> rfl
  | cons job rest ih =>
    obtain ⟨first, others⟩ := nodup_cons.1 different
    cases index with
    | zero =>
      change ((frontEnd.advance job >>= frontEnd.finish) >>= fun job => do
        return job :: (← frontEnd.finishAll rest)) = _
      rw [finish_advance]
      rfl
    | succ index =>
      have apart (other : Job) (isOther : other ∈ rest) : job.file.path.key ≠ other.file.path.key :=
        fun same => first (mem_map.2 ⟨other, isOther, same.symm⟩)
      have swapped := (frontEnd.turn_independent apart index) _ fun rest job => do
        return job :: (← frontEnd.finishAll rest)
      refine swapped.trans ?_
      change (frontEnd.finish job >>= fun job =>
        (frontEnd.turn index rest >>= frontEnd.finishAll) >>= fun rest => pure (job :: rest)) = _
      rw [ih others index]
      rfl

theorem FrontEnd.finishAll_interleave (different : DifferentPaths work.jobs) (schedule : List Nat) :
    frontEnd.finishAll (frontEnd.interleave schedule work).jobs
        (frontEnd.interleave schedule work).cache =
      frontEnd.finishAll work.jobs work.cache := by
  induction schedule generalizing work with
  | nil => rfl
  | cons index rest ih =>
    have files := frontEnd.turn_files index work.jobs work.cache
    have stillDifferent : DifferentPaths (frontEnd.turn index work.jobs work.cache).1 := by
      have keys := congrArg (List.map fun file => file.path.key) files
      rw [map_map, map_map] at keys
      exact (congrArg List.Nodup keys).mpr different
    have later := @ih ⟨_, (frontEnd.turn index work.jobs work.cache).2⟩ stillDifferent
    exact later.trans (congrFun (finishAll_turn different index) work.cache)

theorem FrontEnd.finishAll_of_done (finished : jobs.map Job.stage = results.map Stage.done) :
    frontEnd.finishAll jobs = pure jobs := by
  induction jobs generalizing results with
  | nil => rfl
  | cons job rest ih =>
    cases results with
    | nil => simp at finished
    | cons result others =>
      obtain ⟨isDone, areDone⟩ := List.cons.inj finished
      unfold finishAll
      rw [finish_of_done isDone, ih areDone]
      rfl

theorem Work.start_sound (frontEnd : FrontEnd) (files : List SourceFile) (cache : BuildCache) :
    SoundJobs frontEnd files (Work.start files cache).jobs := by
  induction files with
  | nil => exact .nil
  | cons file rest ih => exact .cons ⟨rfl, trivial⟩ ih

theorem FrontEnd.exists_interleave_eq_lowerFiles {files : List SourceFile} {cache : BuildCache} :
    ∃ schedule, (frontEnd.interleave schedule (.start files cache)).Finished
        (frontEnd.lowerFiles cache files).1 ∧
      (frontEnd.interleave schedule (.start files cache)).cache =
        (frontEnd.lowerFiles cache files).2 := by
  obtain ⟨schedule, finishes⟩ := frontEnd.exists_schedule
  obtain ⟨stages, kept⟩ := frontEnd.finishAll_start files cache
  have finished := finishes cache
  refine ⟨schedule, ?_, ?_⟩
  · exact (congrArg (fun work : Work => work.jobs.map Job.stage) finished).trans stages
  · exact (congrArg Work.cache finished).trans kept

end Interleavings

/-- However the steps of files over a cache are interleaved, every file is reported
    as it is when the files are lowered one after the other.  If the paths differ,
    it is also served from the cache or lowered alike, and the same document is
    kept. -/
theorem interleave_eq_lowerFiles (frontEnd : FrontEnd) (texts : List String)
    (files : List SourceFile) (cache : BuildCache) (schedule : List Nat)
    (results : List (Except FileError LoweredFile)) (apart : ToldApart texts)
    (listed : ∀ file ∈ files, file.text ∈ texts) (records : cache.Records frontEnd texts)
    (finished : (frontEnd.interleave schedule (.start files cache)).Finished results) :
    results.map outputOf = (frontEnd.lowerFiles cache files).1.map outputOf ∧
    ((files.map (·.path.key)).Nodup →
      results = (frontEnd.lowerFiles cache files).1 ∧
      (frontEnd.interleave schedule (.start files cache)).cache.document =
        (frontEnd.lowerFiles cache files).2.document) := by
  constructor
  · obtain ⟨inTurn, finishedInTurn, _⟩ := frontEnd.exists_interleave_eq_lowerFiles
    have sound := FrontEnd.interleave_sound apart listed records (Work.start_sound frontEnd files cache)
    rw [(sound schedule).outputs finished, (sound inTurn).outputs finishedInTurn]
  · intro different
    have differ : DifferentPaths (Work.start files cache).jobs := by
      unfold DifferentPaths Work.start
      rw [List.map_map]
      exact different
    have same := frontEnd.finishAll_interleave differ schedule
    rw [FrontEnd.finishAll_of_done finished] at same
    obtain ⟨stages, kept⟩ := frontEnd.finishAll_start files cache
    have reached := (congrArg (fun left => left.1.map Job.stage) same).trans stages
    have done : Function.Injective Stage.done := fun _ _ => Stage.done.inj
    exact ⟨done.list_map (finished.symm.trans reached),
      congrArg BuildCache.document ((congrArg Prod.snd same).trans kept)⟩

def twoClassFrontEnd : FrontEnd :=
  let classUnit (name : String) : CompilationUnit :=
    ⟨[], none, [⟨name, .classType, [], [], none, [], none, [], ⟨0, 1⟩⟩]⟩
  .ofSources [("a", classUnit "A"), ("b", classUnit "B")]

def classText (name : String) : String := "class " ++ name ++ "\n\x7b\n\x7d\n"

def knownCache : BuildCache :=
  { config := Digest.ofText ""
    entries := .ofList [(⟨"x"⟩, ⟨Digest.ofText "b", classText "B"⟩)] }

theorem knownCache_records : knownCache.Records twoClassFrontEnd ["a", "b"] := by
  intro path entry present
  have entries : knownCache.entries.entries =
      [(⟨"x"⟩, ⟨Digest.ofText "b", classText "B"⟩)] := rfl
  rw [entries, mem_singleton] at present
  cases present
  exact ⟨"b", by simp, rfl, rfl⟩

def samePath : List SourceFile := [⟨⟨"x"⟩, "a"⟩, ⟨⟨"x"⟩, "b"⟩, ⟨⟨"x"⟩, "a"⟩]

def differentPaths : List SourceFile := [⟨⟨"x"⟩, "a"⟩, ⟨⟨"y"⟩, "b"⟩]

/-- Of three files with one path, the second finds what the first would have
    overwritten, and the third what the second would have: only where the results
    come from differs from lowering one after the other.  With different paths not
    even that does. -/
theorem interleave_eq_samePath_differentPaths :
    ToldApart ["a", "b"] ∧
    (∃ results,
      (twoClassFrontEnd.interleave [1, 0, 0, 0, 2] (.start samePath knownCache)).Finished results ∧
      results.map outputOf = (twoClassFrontEnd.lowerFiles knownCache samePath).1.map outputOf ∧
      results ≠ (twoClassFrontEnd.lowerFiles knownCache samePath).1) ∧
    (∃ results,
      (twoClassFrontEnd.interleave [1, 0, 1, 0, 1, 0] (.start differentPaths knownCache)).Finished
        results ∧
      results = (twoClassFrontEnd.lowerFiles knownCache differentPaths).1) := by
  have apart : ToldApart ["a", "b"] := by
    unfold ToldApart
    decide +kernel
  have same : (twoClassFrontEnd.interleave [1, 0, 0, 0, 2] (.start samePath knownCache)).Finished
      [.ok ⟨⟨"x"⟩, classText "A", false⟩, .ok ⟨⟨"x"⟩, classText "B", true⟩,
        .ok ⟨⟨"x"⟩, classText "A", true⟩] := by
    unfold Work.Finished
    decide +kernel
  have different : (twoClassFrontEnd.interleave [1, 0, 1, 0, 1, 0]
      (.start differentPaths knownCache)).Finished
      [.ok ⟨⟨"x"⟩, classText "A", false⟩, .ok ⟨⟨"y"⟩, classText "B", false⟩] := by
    unfold Work.Finished
    decide +kernel
  refine ⟨apart, ⟨_, same, ?_, by decide +kernel⟩, ⟨_, different, ?_⟩⟩
  · exact (interleave_eq_lowerFiles twoClassFrontEnd ["a", "b"] samePath knownCache _ _ apart
      (by decide +kernel) knownCache_records same).1
  · exact ((interleave_eq_lowerFiles twoClassFrontEnd ["a", "b"] differentPaths knownCache _ _ apart
      (by decide +kernel) knownCache_records different).2 (by decide +kernel)).1

end Unsugar
