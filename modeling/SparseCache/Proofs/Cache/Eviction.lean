import SparseCache.Proofs.Cache.Handles

namespace SparseCache

/-! A timer evicts its own entry or none.

The epoch of an entry goes on whenever its last handle is given back.  So an entry that
has no handle and the epoch of the timer has had none since the upload was scheduled, and
what that upload stored is what the entry holds.  The main theorem is `evicts_at_rest`.
-/

/-- What time may do to an entry: a time in use that is over shows in its epoch. -/
structure Entry.Ages (before after : Entry) : Prop where
  epoch : before.epoch ≤ after.epoch
  used : 0 < before.handles → after.handles = 0 → before.epoch < after.epoch
  clean : before.clean ≤ after.clean

namespace Entry.Ages

variable {before middle after : Entry}

theorem refl (entry : Entry) : entry.Ages entry where
  epoch := Nat.le_refl _
  used held none := by
    rw [none] at held
    cases held
  clean := Nat.le_refl _

theorem trans (first : before.Ages middle) (second : middle.Ages after) : before.Ages after where
  epoch := Nat.le_trans first.epoch second.epoch
  used held none := by
    rcases Nat.eq_zero_or_pos middle.handles with released | still
    · exact Nat.lt_of_lt_of_le (first.used held released) second.epoch
    · exact Nat.lt_of_le_of_lt first.epoch (second.used still none)
  clean := Nat.le_trans first.clean second.clean

theorem of_handles (epoch : after.epoch = before.epoch) (clean : before.clean ≤ after.clean)
    (handles : after.handles = 0 → before.handles = 0) : before.Ages after where
  epoch := Nat.le_of_eq epoch.symm
  used held none := by
    rw [handles none] at held
    cases held
  clean := clean

theorem of_release {n : Nat} (left : before.releaseHandle? = some (n, after)) :
    before.Ages after := by
  obtain ⟨-, rfl⟩ := Entry.releaseHandle?_some left
  refine ⟨?_, fun _ none => ?_, Nat.le_refl _⟩
  · simp only
    split
    · exact Nat.le_succ _
    · exact Nat.le_refl _
  · simp only at none
    simp only [none, if_true]
    exact Nat.lt_succ_self _

end Entry.Ages

/-- The version that an upload is going to mark clean, once it is known. -/
def Upload.Stage.version? : Upload.Stage → Option Nat
  | .loaded version | .copying version _ | .sending version _ _ => some version
  | _ => none

namespace Cache

variable {cache start : Cache} {id : EntryId} {entry next : Entry} {step : Step}
  {task upload : TaskId} {job : Upload} {epoch due : Nat} {mount : Mount} {steps : Nat → Step}
  {i j k m n : Nat}

/-! ### Entries as time goes by -/

theorem Turn.ages (turn : Turn cache id entry step next) : entry.Ages next := by
  cases turn with
  | displaced refused displaced =>
      obtain ⟨_, rfl | rfl⟩ := displaced <;>
        exact .of_handles rfl (Nat.le_refl _) fun none => none
  | wrote done =>
      obtain ⟨_, -, -, rfl⟩ := Entry.write_ok done
      exact .of_handles rfl (Nat.le_refl _) fun none => none
  | resized done =>
      obtain ⟨_, -, -, rfl⟩ := Entry.truncate_ok done
      exact .of_handles rfl (Nat.le_refl _) fun none => none
  | opened mapped keeps => exact .of_handles rfl (Nat.le_refl _) fun none => by cases none
  | emptied mapped wipes done =>
      obtain ⟨_, -, -, rfl⟩ := Entry.truncate_ok done
      exact .of_handles rfl (Nat.le_refl _) fun none => by cases none
  | @refused path flags size modified n after mapped wipes closed left =>
      have reopened : entry.Ages (entry.reopened modified) :=
        .of_handles rfl (Nat.le_refl _) fun none => by cases none
      exact reopened.trans (.of_release left)
  | released held left => exact .of_release left
  | @filled task i reply work load waiting going =>
      obtain ⟨_, _, stored⟩ := load.receive_entry i entry reply
      rw [stored]
      exact .of_handles rfl (Nat.le_refl _) fun none => none
  | cleaned doing about stage =>
      exact .of_handles rfl (Nat.le_max_left _ _) fun none => none

theorem ages_after (found : Cache.entry? (start.after steps m) id = some entry) (later : m ≤ n) :
    ∃ next, Cache.entry? (start.after steps n) id = some next ∧ entry.Ages next :=
  entry?_after .refl .trans Turn.ages found later

/-- An entry that has no handle in the epoch in which it is found later has none in between. -/
theorem idle_between (found : Cache.entry? (start.after steps m) id = some entry)
    (last : Cache.entry? (start.after steps n) id = some next) (idle : next.handles = 0)
    (same : next.epoch = entry.epoch) (after : m ≤ k) (before : k ≤ n) :
    ∃ held, Cache.entry? (start.after steps k) id = some held ∧ held.handles = 0 ∧
      held.epoch = entry.epoch := by
  obtain ⟨held, present, aged⟩ := ages_after found after
  obtain ⟨final, present', aged'⟩ := ages_after present before
  rw [last] at present'
  cases present'
  have epoch : held.epoch = entry.epoch :=
    Nat.le_antisymm (Nat.le_trans aged'.epoch (Nat.le_of_eq same)) aged.epoch
  refine ⟨held, present, Nat.eq_zero_of_not_pos fun used => ?_, epoch⟩
  have passed := aged'.used used idle
  rw [same, epoch] at passed
  exact Nat.lt_irrefl _ passed

/-- The entry that a write or a truncation of an open file goes to. -/
def Step.changes? : Step → Option EntryId
  | .write entry _ _ | .truncate entry _ => some entry
  | _ => none

/-- Nobody writes or truncates but through an open handle. -/
def ThroughHandles (mount : Mount) (steps : Nat → Step) : Prop :=
  ∀ n, ∀ id ∈ (steps n).changes?, (mount.cache.after steps n).Holds id

theorem Turn.version_eq (turn : Turn cache id entry step next) (counted : cache.Counted)
    (found : cache.entry? id = some entry) (through : ∀ id ∈ step.changes?, cache.Holds id)
    (idle : entry.handles = 0) (idle' : next.handles = 0) (same : next.epoch = entry.epoch) :
    next.version = entry.version := by
  have unheld : ¬ cache.Holds id := by
    rw [counted.holds_iff_handles found, idle]
    exact Nat.lt_irrefl 0
  cases turn with
  | displaced refused displaced =>
      obtain ⟨_, rfl | rfl⟩ := displaced <;> rfl
  | wrote done => exact absurd (through id rfl) unheld
  | resized done => exact absurd (through id rfl) unheld
  | opened mapped keeps => cases idle'
  | emptied mapped wipes done =>
      obtain ⟨_, -, -, rfl⟩ := Entry.truncate_ok done
      cases idle'
  | @refused path flags size modified n after mapped wipes closed left =>
      obtain ⟨-, rfl⟩ := Entry.releaseHandle?_some left
      simp only at idle'
      simp only [idle', if_true] at same
      exact absurd same (Nat.succ_ne_self _)
  | released held left => exact absurd ⟨_, held⟩ unheld
  | @filled task i reply work load waiting going =>
      obtain ⟨_, _, stored⟩ := load.receive_entry i entry reply
      rw [stored]
  | cleaned doing about stage => rfl

theorem version_between (through : ThroughHandles mount steps)
    (found : Cache.entry? (mount.cache.after steps m) id = some entry)
    (last : Cache.entry? (mount.cache.after steps n) id = some next) (idle : next.handles = 0)
    (same : next.epoch = entry.epoch) (later : m ≤ k) (before : k ≤ n) :
    ∃ held, Cache.entry? (mount.cache.after steps k) id = some held ∧
      held.version = entry.version := by
  induction later with
  | refl => exact ⟨entry, found, rfl⟩
  | @step k later ih =>
      obtain ⟨held, present, version⟩ := ih (Nat.le_of_succ_le before)
      obtain ⟨held', present', unused, epoch⟩ :=
        idle_between found last idle same later (Nat.le_of_succ_le before)
      obtain ⟨moved, shown, unused', epoch'⟩ :=
        idle_between found last idle same (Nat.le_succ_of_le later) before
      rw [present] at present'
      cases present'
      obtain ⟨moved', shown', turn⟩ := turn_step present (steps k)
      rw [after_succ, shown'] at shown
      cases shown
      refine ⟨moved, shown', (turn.version_eq (counted_after mount steps k) present (through k)
        unused unused' ?_).trans version⟩
      exact epoch'.trans epoch.symm

/-! ### Where a timer comes from -/

/-- In step `i` an upload of the entry was scheduled, in step `j` it ended and set the timer. -/
structure Armed (start : Cache) (steps : Nat → Step) (i j : Nat) (upload : TaskId) (job : Upload)
    (id : EntryId) (epoch due : Nat) : Prop where
  order : i < j
  referred : (start.after steps i).Refers id
  new : upload = (start.after steps i).nextTask
  timely : ∀ entry, Cache.entry? (start.after steps (i + 1)) id = some entry → entry.epoch = epoch
  queued : (start.after steps (i + 1)).doing? upload = some (.upload { job with stage := .queued })
  going : ∀ k, i < k → k ≤ j →
    ∃ stage, (start.after steps k).doing? upload = some (.upload { job with stage })
  ended : (start.after steps j).doing? upload = some (.upload job)
  ends : Ends (start.after steps j) upload job (steps j)
  about : job.entry = id
  goal : job.completion = .evict epoch
  due : due = (start.after steps j).clock + (start.after steps j).grace

theorem scheduled_origin (mount : Mount) (steps : Nat → Step) {job : Upload}
    (doing : (mount.cache.after steps j).doing? upload = some (.upload job))
    (goal : job.completion = .evict epoch) :
    ∃ i, i < j ∧ (mount.cache.after steps i).Refers job.entry ∧
      upload = (mount.cache.after steps i).nextTask ∧
      (∀ entry, Cache.entry? (mount.cache.after steps (i + 1)) job.entry = some entry →
        entry.epoch = epoch) ∧
      (mount.cache.after steps (i + 1)).doing? upload
        = some (.upload { job with stage := .queued }) ∧
      ∀ k, i < k → k ≤ j →
        ∃ stage, (mount.cache.after steps k).doing? upload = some (.upload { job with stage }) := by
  obtain ⟨i, earlier, missing, since⟩ := @exists_origin mount.cache steps
    (fun cache => ∃ stage, cache.doing? upload = some (.upload { job with stage }))
    (fun ⟨_, found⟩ => by cases found) j ⟨job.stage, doing⟩
  obtain ⟨stage, first⟩ := since (i + 1) (Nat.lt_succ_self i) earlier
  refine ⟨i, earlier, ?_⟩
  have course := uploadCourse_step (sound_after mount steps i) (steps i) first
  generalize taken : steps i = step at course
  cases course with
  | kept before => exact absurd ⟨stage, before⟩ missing
  | asked new queued known other =>
      rw [goal] at other
      cases other
  | scheduled new queued referred other timely =>
      rw [goal] at other
      cases other
      refine ⟨referred, new, ?_, queued ▸ first, since⟩
      rwa [← taken] at timely
  | loading before now => exact absurd ⟨_, before⟩ missing
  | loaded before done now => exact absurd ⟨_, before⟩ missing
  | copying before found stored now => exact absurd ⟨_, before⟩ missing
  | reading before going source done now => exact absurd ⟨_, before⟩ missing
  | sending before through told now => exact absurd ⟨_, before⟩ missing

theorem armed_of_timer (mount : Mount) (steps : Nat → Step)
    (timer : (mount.cache.after steps n).doing? task = some (.grace id epoch due)) :
    ∃ i j upload job, j < n ∧ Armed mount.cache steps i j upload job id epoch due := by
  obtain ⟨j, earlier, missing, since⟩ := @exists_origin mount.cache steps
    (fun cache => cache.doing? task = some (.grace id epoch due)) (fun found => by cases found) n
    timer
  have first := since (j + 1) (Nat.lt_succ_self j) earlier
  have course := course_step (sound_after mount steps j) (steps j) first
  generalize same : Work.grace id epoch due = work at course
  generalize taken : steps j = step at course
  cases course with
  | kept before => exact absurd (same ▸ before) missing
  | awaited new known => cases same
  | asked new known => cases same
  | scheduled new referred timely => cases same
  | @timed _ upload job epoch new ending registered goal ends =>
      cases same
      obtain ⟨i, order, referred, number, timely, queued, going⟩ :=
        scheduled_origin mount steps ending goal
      exact ⟨i, j, upload, job, earlier,
        ⟨order, referred, number, timely, queued, going, ending, taken ▸ ends, rfl, goal, rfl⟩⟩
  | begins before idle found started => cases same
  | fetches before queued found dirty started => cases same
  | finishes before stage done => cases same
  | copies before stage found stored => cases same
  | reads before stage going source done => cases same
  | sends before stage through told => cases same
  | @requests work entry load fetch gap before waits asks planned =>
      cases work with
      | grace other age limit => cases waits
      | transfer other => cases same
      | upload other => cases same
  | @receives work entry load held gap reply before waits going found filled =>
      cases work with
      | grace other age limit => cases waits
      | transfer other => cases same
      | upload other => cases same

/-! ### What the upload has stored -/

/-- The upload has seen the version that the entry had all the time. -/
theorem Armed.version_eq (armed : Armed mount.cache steps i j upload job id epoch due)
    {version : Nat}
    (fixed : ∀ k, i < k → k ≤ j →
      ∃ held, Cache.entry? (mount.cache.after steps k) id = some held ∧ held.version = version)
    (after : i < k) (before : k ≤ j) {stage : Upload.Stage}
    (doing : (mount.cache.after steps k).doing? upload = some (.upload { job with stage })) :
    ∀ seen ∈ stage.version?, seen = version := by
  induction after generalizing stage with
  | refl =>
      rw [armed.queued] at doing
      cases doing
      intro seen known
      cases known
  | @step k later ih =>
      have earlier : k ≤ j := Nat.le_of_succ_le before
      have sound := sound_after mount steps k
      -- The upload was under way before, so the step did not begin it.
      have old : upload ≠ (mount.cache.after steps k).nextTask := by
        obtain ⟨_, working⟩ := armed.going k later earlier
        exact Nat.ne_of_lt (lt_nextTask_of_doing? sound.fresh working)
      have course := uploadCourse_step sound (steps k) doing
      generalize steps k = step at course
      cases course with
      | kept working => exact ih earlier working
      | asked new queued known goal => exact absurd new old
      | scheduled new queued referred goal timely => exact absurd new old
      | loading working now =>
          intro seen known
          simp only at now
          rw [now] at known
          cases known
      | loaded working done now =>
          intro seen known
          obtain ⟨held, present, version⟩ := fixed k later earlier
          simp only [armed.about, present] at now
          rw [now] at known
          cases known
          exact version
      | copying working found stored now | reading working going source done now
      | sending working through told now =>
          intro seen known
          simp only at now
          rw [now] at known
          cases known
          exact ih earlier working _ rfl

/-- Once an upload has ended well, the entry is clean for as long as nobody uses it. -/
theorem Armed.clean (armed : Armed mount.cache steps i j upload job id epoch due)
    (through : ThroughHandles mount steps) (later : j < n)
    (rooted : ∃ entry, Cache.entry? (mount.cache.after steps (i + 1)) id = some entry)
    (last : Cache.entry? (mount.cache.after steps n) id = some next) (idle : next.handles = 0)
    (same : next.epoch = epoch) :
    next.isDirty = false ∨ (steps j).Drives upload ∧
      Logged (mount.cache.after steps j) (mount.cache.after steps (j + 1))
        .error "upload failed" := by
  obtain ⟨entry, found⟩ := rooted
  have current : next.epoch = entry.epoch := same.trans (armed.timely entry found).symm
  have version : ∀ k, i < k → k ≤ n →
      ∃ held, Cache.entry? (mount.cache.after steps k) id = some held ∧
        held.version = entry.version :=
    fun k after before => version_between through found last idle current after before
  have fixed := fun k (after : i < k) (before : k ≤ j) =>
    version k after (Nat.le_trans before (Nat.le_of_lt later))
  obtain ⟨held, present, version_j⟩ := fixed j armed.order (Nat.le_refl j)
  obtain ⟨final, shown, version_n⟩ := version n (Nat.lt_trans armed.order later) (Nat.le_refl n)
  rw [last] at shown
  cases shown
  have ends := armed.ends
  generalize taken : steps j = step at ends
  cases ends with
  | unchanged queued clean =>
      rw [armed.about] at clean
      have stored := clean held present
      obtain ⟨final, shown, aged⟩ := ages_after present (Nat.le_of_lt later)
      rw [last] at shown
      cases shown
      left
      simp only [Entry.isDirty, decide_eq_false_iff_not, Nat.not_lt, version_n, version_j]
        at stored ⊢
      exact Nat.le_trans stored aged.clean
  | failed own logged =>
      right
      rw [← taken] at logged
      exact ⟨own, logged⟩
  | @stored seen snapshot call stage =>
      left
      have known : seen = entry.version := armed.version_eq fixed armed.order (Nat.le_refl j)
        armed.ended seen (by rw [stage]; exact rfl)
      obtain ⟨own, live, bare⟩ := live?_of_doing? armed.ended
      obtain ⟨working, rfl, rfl⟩ := Work.upload_of_bare bare
      have about : id = working.entry := armed.about.symm
      have settled : Cache.entry? (mount.cache.after steps (j + 1)) id
          = some (held.markClean seen) := by
        rw [after_succ, taken]
        exact (entry?_settle (live?_eq_some_iff.mp live) stage present).trans (if_pos about)
      obtain ⟨final, shown, aged⟩ := ages_after settled later
      rw [last] at shown
      cases shown
      simp only [Entry.isDirty, decide_eq_false_iff_not, Nat.not_lt, version_n, ← known]
      exact Nat.le_trans (Nat.le_max_right _ _) aged.clean

/-! ### What a timer does -/

/-- The entry is mapped, has no handle, and has had none since `epoch` began. -/
structure Rests (cache : Cache) (id : EntryId) (epoch : Nat) : Prop where
  mapped : cache.Maps id
  unheld : ¬ cache.Holds id
  unused : ∃ entry, cache.entry? id = some entry ∧ entry.handles = 0 ∧ entry.epoch = epoch

/-- An entry that rests when its timer fires has rested since the upload was scheduled. -/
theorem Armed.rests (armed : Armed mount.cache steps i j upload job id epoch due)
    (now : (mount.cache.after steps n).Rests id epoch) (after : i < k) (before : k ≤ n) :
    (mount.cache.after steps k).Rests id epoch := by
  obtain ⟨last, present, idle, current⟩ := now.unused
  have known := (rooted_after mount steps i).referred armed.referred
  obtain ⟨entry, found⟩ := Option.isSome_iff_exists.mp (@isSome_step _ _ (steps i) known)
  have same : last.epoch = entry.epoch := current.trans (armed.timely entry found).symm
  obtain ⟨held, shown, unused, epoch⟩ :=
    idle_between (m := i + 1) found present idle same after before
  refine ⟨?_, fun holds => ?_, held, shown, unused, ?_⟩
  · refine Classical.byContradiction fun unmapped => ?_
    exact not_maps_after unmapped (by rw [shown]; rfl) before now.mapped
  · have used := ((counted_after mount steps k).holds_iff_handles shown).mp holds
    rw [unused] at used
    cases used
  · exact epoch.trans (armed.timely entry found)

theorem advance_timer (timer : cache.doing? task = some (.grace id epoch due)) :
    cache.advance task
      = if due ≤ cache.clock then (cache.dropTask task).evictIfIdle id epoch else cache := by
  obtain ⟨work, live, bare⟩ := live?_of_doing? timer
  rw [advance_of_live live]
  cases work with
  | transfer job => cases bare
  | upload job => cases bare
  | grace other age limit =>
      cases bare
      rfl

theorem rests_of_idle (counted : cache.Counted) (found : cache.entry? id = some entry)
    (home : cache.mapped.get? entry.path = some id) (unused : entry.handles = 0)
    (current : entry.epoch = epoch) : cache.Rests id epoch := by
  refine ⟨⟨entry.path, home⟩, fun holds => ?_, entry, found, unused, current⟩
  have used := (counted.holds_iff_handles found).mp holds
  rw [unused] at used
  cases used

theorem rests_of_evicted (counted : cache.Counted) {path : Path} {other : EntryId}
    (mapped : cache.mapped.get? path = some other)
    (gone : (cache.evictIfIdle id epoch).mapped.get? path = none) :
    other = id ∧ cache.Rests id epoch := by
  unfold evictIfIdle at gone
  split at gone
  · rw [mapped] at gone
    cases gone
  · rename_i entry found
    split at gone
    · rename_i idle
      obtain ⟨home, unused, current⟩ := idle
      refine ⟨?_, rests_of_idle counted found home unused current⟩
      rw [(SameTables.closeEntry _ id).mapped] at gone
      by_cases here : entry.path.Same path
      · rw [← PathMap.get?_congr here, home] at mapped
        exact (Option.some.inj mapped).symm
      · rw [PathMap.get?_erase_of_not_same here, mapped] at gone
        cases gone
    · rw [mapped] at gone
      cases gone

theorem evictIfIdle_of_not_rests (counted : cache.Counted) (restless : ¬ cache.Rests id epoch) :
    cache.evictIfIdle id epoch = cache := by
  unfold evictIfIdle
  split
  · rfl
  · rename_i entry found
    refine if_neg fun idle => restless ?_
    obtain ⟨home, unused, current⟩ := idle
    exact rests_of_idle counted found home unused current

/-- Whatever a timer unmaps is the entry for which it was set.  That entry has rested since the
upload was scheduled that set the timer, and it is clean unless the upload failed; and the grace
period is over.  A timer whose entry did not rest all the time is only dropped. -/
theorem evicts_at_rest (mount : Mount) (steps : Nat → Step) (through : ThroughHandles mount steps)
    (n : Nat) (task : TaskId) (id : EntryId) (epoch due : Nat)
    (timer : (mount.cache.after steps n).doing? task = some (.grace id epoch due)) :
    ∃ i j upload job, j < n ∧ Armed mount.cache steps i j upload job id epoch due ∧
      (∀ path other, (mount.cache.after steps n).mapped.get? path = some other →
        ((mount.cache.after steps n).step (.act (.advance task))).mapped.get? path = none →
        other = id ∧ (∀ k, i < k → k ≤ n → (mount.cache.after steps k).Rests id epoch) ∧
          (mount.cache.after steps j).clock + mount.config.gracePeriod
            ≤ (mount.cache.after steps n).clock ∧
          ((∃ entry, Cache.entry? (mount.cache.after steps n) id = some entry ∧
              entry.isDirty = false) ∨
            (steps j).Drives upload ∧ Logged (mount.cache.after steps j)
              (mount.cache.after steps (j + 1)) .error "upload failed")) ∧
      ((∃ k, i < k ∧ k ≤ n ∧ ¬ (mount.cache.after steps k).Rests id epoch) →
        (mount.cache.after steps n).step (.act (.advance task))
          = if due ≤ (mount.cache.after steps n).clock then
              (mount.cache.after steps n).dropTask task
            else mount.cache.after steps n) := by
  obtain ⟨i, j, upload, job, later, armed⟩ := armed_of_timer mount steps timer
  have counted := counted_after mount steps n
  have dropped : ((mount.cache.after steps n).dropTask task).Counted :=
    counted.of_sameStore ((SameStore.refl _).dropTask task)
  have fired : (mount.cache.after steps n).step (.act (.advance task)) = _ := advance_timer timer
  refine ⟨i, j, upload, job, later, armed, fun path other mapped gone => ?_, fun restless => ?_⟩
  · rw [fired] at gone
    split at gone
    · rename_i ripe
      obtain ⟨same, rests⟩ := rests_of_evicted dropped mapped gone
      have now : (mount.cache.after steps n).Rests id epoch :=
        ⟨rests.mapped, rests.unheld, rests.unused⟩
      obtain ⟨entry, found, idle, current⟩ := now.unused
      have known := (rooted_after mount steps i).referred armed.referred
      have made := Option.isSome_iff_exists.mp (@isSome_step _ _ (steps i) known)
      refine ⟨same, fun k => armed.rests now, ?_, ?_⟩
      · rw [← grace_after mount steps j, ← armed.due]
        exact ripe
      · rcases armed.clean through later made found idle current with clean | failed
        · exact .inl ⟨entry, found, clean⟩
        · exact .inr failed
    · rw [mapped] at gone
      cases gone
  · rw [fired]
    have now : ¬ (mount.cache.after steps n).Rests id epoch := by
      intro rests
      obtain ⟨k, after, before, other⟩ := restless
      exact other (armed.rests rests after before)
    rw [evictIfIdle_of_not_rests dropped fun rests =>
      now ⟨rests.mapped, rests.unheld, rests.unused⟩]

/-- A file is written and closed, its upload ends well, and the timer fires. -/
def writtenOnce : List Step :=
  [.openFile ⟨[47, 97]⟩ .readWrite 1 .now, .write 0 0 [9], .closeHandle 1, .act (.advance 0),
    .act (.advance 0), .act (.advance 0), .act (.advance 0), .act (.advance 0),
    .act (.settle 0 (.ok ())), .act (.tick 100)]

theorem through_writtenOnce : ThroughHandles (mountWith 100) (scripted writtenOnce) := by
  intro n id changed
  have early : ∀ n < 10, n ≠ 1 → (scripted writtenOnce n).changes? = none := by decide
  rcases Nat.lt_or_ge n 10 with soon | late
  · by_cases writes : n = 1
    · subst writes
      cases changed
      exact ⟨1, by decide⟩
    · rw [early n soon writes] at changed
      cases changed
  · rw [scripted_of_le late] at changed
    cases changed

theorem writtenOnce_evicted_at_rest :
    ThroughHandles (mountWith 100) (scripted writtenOnce) ∧
      ((mountWith 100).cache.after (scripted writtenOnce) 10).doing? 1 = some (.grace 0 1 100) ∧
      ∃ i j, i < j ∧ j < 10 ∧
        (∀ k, i < k → k ≤ 10 → ((mountWith 100).cache.after (scripted writtenOnce) k).Rests 0 1) ∧
        ((mountWith 100).cache.after (scripted writtenOnce) j).clock + 100
          ≤ ((mountWith 100).cache.after (scripted writtenOnce) 10).clock := by
  have timer : ((mountWith 100).cache.after (scripted writtenOnce) 10).doing? 1
      = some (.grace 0 1 100) := by decide
  obtain ⟨i, j, upload, job, later, armed, evicts, -⟩ :=
    evicts_at_rest (mountWith 100) _ through_writtenOnce 10 1 0 1 100 timer
  obtain ⟨-, rests, ended, -⟩ := evicts ⟨[47, 97]⟩ 0 (by decide) (by decide)
  exact ⟨through_writtenOnce, timer, i, j, armed.order, later, rests, ended⟩

end Cache

end SparseCache
