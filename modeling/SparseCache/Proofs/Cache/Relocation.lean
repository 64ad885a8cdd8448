import SparseCache.Proofs.Cache.Confinement

namespace SparseCache.Cache

/-! What a move leaves behind.

The entry goes to its new place together with its upload, which starts again there; whatever
was in the way is discarded.  Where there is no entry to move, only the discarding is left.
-/

variable {cache base before middle after : Cache} {id other : EntryId} {entry : Entry}
  {path source destination : Path} {task : TaskId}

/-- The entry was closed and is mapped nowhere; else it is as it was. -/
structure Discards (before after : Cache) (id : EntryId) : Prop where
  closed : ∃ entry, before.entry? id = some entry ∧ after.entry? id = some entry.close
  unmapped : ∀ path, after.mapped.get? path ≠ some id

/-- The entry was taken from `source` to `destination`, changed in nothing but its path. -/
structure Resettles (before after : Cache) (source destination : Path) (id : EntryId)
    (entry : Entry) : Prop where
  left : after.mapped.get? source = none
  arrived : after.mapped.get? destination = some id
  renamed : after.entry? id = some { entry with path := destination }
  displaced : ∀ {other}, before.mapped.get? destination = some other → Discards before after other

/-- The entry was taken from `source` to `destination` together with its upload, if it had one. -/
structure Relocates (before after : Cache) (source destination : Path) (id : EntryId)
    (entry : Entry) : Prop extends Resettles before after source destination id entry where
  cancelled : after.pending.get? source = none
  rescheduled : (after.pending.get? destination).isSome = (before.pending.get? source).isSome
  /-- What was on record was an upload of this entry. -/
  owner : ∀ {task}, before.pending.get? source = some task →
    ∃ job, before.doing? task = some (.upload job) ∧ job.entry = id
  upload : ∀ {task}, after.pending.get? destination = some task →
    after.doing? task
      = some (.upload { entry := id, path := destination, completion := .evict entry.epoch })

/-- One of the two places that a move is about. -/
def AtEither (source destination path : Path) : Prop := source.Same path ∨ destination.Same path

/-- Nothing is left at either place. -/
structure Clears (before after : Cache) (source destination : Path) : Prop where
  unmapped : ∀ {path}, AtEither source destination path → after.mapped.get? path = none
  unrecorded : ∀ {path}, AtEither source destination path → after.pending.get? path = none
  displaced : ∀ {other}, before.mapped.get? destination = some other → Discards before after other

/-! ### Uploads of either place -/

theorem Current.owner (current : cache.Current) (registered : cache.pending.get? path = some task) :
    ∃ job, cache.doing? task = some (.upload job) ∧ cache.mapped.get? path = some job.entry := by
  obtain ⟨job, working, here⟩ := current.enrolled.record.mp registered
  obtain ⟨stage, doing⟩ := doing?_of_upload? working
  exact ⟨{ job with stage }, doing, (PathMap.get?_congr here).symm.trans (current.homed working)⟩

/-- Uploads are only on record where something is mapped. -/
theorem Current.unrecorded (current : cache.Current) (unmapped : cache.mapped.get? path = none) :
    cache.pending.get? path = none := by
  rw [Option.eq_none_iff_forall_ne_some]
  intro task registered
  obtain ⟨job, -, mapped⟩ := current.owner registered
  rw [unmapped] at mapped
  cases mapped

/-! ### The places of a move -/

/-- A move begins when the uploads of both places were stopped, and nothing else was done. -/
structure Readied (before after : Cache) (source destination : Path) : Prop where
  current : after.Current
  sound : after.Sound
  store : SameStore before after
  free : ∀ {path}, AtEither source destination path → after.pending.get? path = none
  confined : ∀ {touched}, Confined (AtEither source destination) touched before after

theorem Current.readied (current : cache.Current) (sound : cache.Sound)
    (source destination : Path) :
    Readied cache ((cache.cancel source).2.cancel destination).2 source destination where
  current := (current.cancel sound source).cancel (Wanes.cancel sound source).sound destination
  sound := (wanes_moved sound source destination).sound
  store := ((SameStore.refl cache).cancel source).cancel destination
  free := pending_moved sound
  confined := (Confined.cancel current.enrolled sound .inl).trans
    (.cancel (current.enrolled.cancel sound) (Wanes.cancel sound source).sound .inr)

theorem Current.confined_moveFile (current : cache.Current) (sound : cache.Sound)
    (rooted : cache.Rooted) (source destination : Path) :
    Confined (AtEither source destination)
      (fun id => cache.mapped.get? source = some id ∨ cache.mapped.get? destination = some id)
      cache (cache.moveFile source destination).2 := by
  have moves := moves_moveFile cache source destination
  obtain ⟨cancelled, sound', store, -, confined⟩ := current.readied sound source destination
  generalize ((cache.cancel source).2.cancel destination).2 = base
    at moves cancelled sound' store confined
  have relocated : ∀ {id}, ¬ source.Same destination → base.mapped.get? source = some id →
      Confined (AtEither source destination)
        (fun id => cache.mapped.get? source = some id ∨ cache.mapped.get? destination = some id)
        cache (base.relocate source destination id) := by
    intro id apart mapped
    refine confined.trans (.relocate base (fun taken => apart (cancelled.sole.same mapped taken))
      .inl .inr (.inl (store.mapped ▸ mapped)) fun taken => .inr (store.mapped ▸ taken))
  generalize (cache.moveFile source destination).2 = after at moves
  cases moves with
  | same same => exact .refl cache
  | absent apart nowhere free => exact confined
  | discarded apart nowhere taken =>
      exact (confined.trans (.unmap .inr)).trans
        (.closeEntry _ (.inr (store.mapped ▸ taken)))
  | moved apart mapped idle => exact relocated apart mapped
  | @rescheduled id apart mapped hit =>
      have same := (SameWork.refl base).relocate source destination id
      have elsewhere : base.mapped.get? destination ≠ some id :=
        fun taken => apart (cancelled.sole.same mapped taken)
      obtain ⟨entry, found⟩ := Option.isSome_iff_exists.mp
        (rooted.referred (.inr ⟨source, store.mapped ▸ mapped⟩))
      have place : (base.relocate source destination id).pathOf id = destination := by
        rw [pathOf, entry?_relocated base source destination elsewhere, if_pos rfl, store.lookup,
          found]
        rfl
      refine (relocated apart mapped).trans (.schedule (cancelled.enrolled.congr same.pending
        fun _ => upload?_congr same.doing?) (same.sound sound') ?_)
      rw [place]
      exact .inr

/-! ### Outcomes -/

/-- What is relocated onto another entry discards it. -/
theorem Discards.relocate (current : base.Current) (rooted : cache.Rooted)
    (store : SameStore cache base) (apart : ¬ source.Same destination)
    (mapped : base.mapped.get? source = some id)
    (taken : base.mapped.get? destination = some other) :
    Discards cache (base.relocate source destination id) other := by
  have elsewhere : base.mapped.get? destination ≠ some id :=
    fun here => apart (current.sole.same mapped here)
  have unlike : other ≠ id := by
    rintro rfl
    exact elsewhere taken
  obtain ⟨entry, found⟩ := Option.isSome_iff_exists.mp
    (rooted.referred (.inr ⟨destination, store.mapped ▸ taken⟩))
  refine ⟨⟨entry, found, ?_⟩, fun path kept => ?_⟩
  · rw [entry?_relocated base source destination elsewhere, if_neg unlike, if_pos taken,
      store.lookup, found]
    rfl
  · rcases mapped_before_relocate kept with ⟨-, same⟩ | ⟨away, -, held⟩
    · exact unlike same
    · exact away (current.sole.same taken held)

theorem Discards.unmap (current : base.Current) (rooted : cache.Rooted)
    (store : SameStore cache base) (taken : base.mapped.get? path = some id) :
    Discards cache (closeEntry { base with mapped := base.mapped.erase path } id) id := by
  obtain ⟨entry, found⟩ := Option.isSome_iff_exists.mp
    (rooted.referred (.inr ⟨path, store.mapped ▸ taken⟩))
  refine ⟨⟨entry, found, ?_⟩, fun other => ?_⟩
  · have kept : entry? { base with mapped := base.mapped.erase path } id = some entry :=
      store.lookup.trans found
    rw [entry?_closeEntry, if_pos rfl, kept]
    rfl
  · rw [(SameTables.closeEntry _ _).mapped]
    exact current.sole.get?_erase_ne taken

theorem Discards.of_sameStore (discards : Discards cache middle id)
    (same : SameStore middle after) : Discards cache after id := by
  obtain ⟨⟨entry, known, closed⟩, unmapped⟩ := discards
  exact ⟨⟨entry, known, same.lookup.trans closed⟩, by rwa [same.mapped]⟩

theorem Resettles.of_sameStore (moved : Resettles cache middle source destination id entry)
    (same : SameStore middle after) : Resettles cache after source destination id entry where
  left := by rw [same.mapped, moved.left]
  arrived := by rw [same.mapped, moved.arrived]
  renamed := same.lookup.trans moved.renamed
  displaced taken := (moved.displaced taken).of_sameStore same

theorem Resettles.relocate (current : base.Current) (rooted : cache.Rooted)
    (store : SameStore cache base) (apart : ¬ source.Same destination)
    (mapped : base.mapped.get? source = some id) (found : cache.entry? id = some entry) :
    Resettles cache (base.relocate source destination id) source destination id entry where
  left := by
    rw [mapped_relocate, PathMap.get?_set, if_neg fun back => apart back.symm,
      PathMap.get?_erase_of_same (.refl _)]
  arrived := by rw [mapped_relocate, PathMap.get?_set, if_pos (Path.Same.refl _)]
  renamed := by
    rw [entry?_relocated base source destination
      (fun taken => apart (current.sole.same mapped taken)), if_pos rfl, store.lookup, found]
    rfl
  displaced taken := .relocate current rooted store apart mapped (store.mapped ▸ taken)

/-- An upload that was under way starts again at the new place. -/
theorem Resettles.reschedule (moved : Resettles cache middle source destination id entry)
    (sound : middle.Sound) (apart : ¬ source.Same destination)
    (free : middle.pending.get? source = none) (hit : (cache.pending.get? source).isSome)
    (owner : ∀ {task}, cache.pending.get? source = some task →
      ∃ job, cache.doing? task = some (.upload job) ∧ job.entry = id) :
    Relocates cache (middle.schedule id (.evict entry.epoch)) source destination id entry := by
  have place : middle.pathOf id = destination := by
    rw [pathOf, moved.renamed]
    rfl
  have registered : ∀ {other}, (middle.schedule id (.evict entry.epoch)).pending.get? other
      = if destination.Same other then some middle.nextTask else middle.pending.get? other := by
    intro other
    rw [pending_schedule sound.backed, PathMap.get?_set, place]
  refine ⟨moved.of_sameStore ((SameStore.refl middle).schedule id _), ?_, ?_, owner, ?_⟩
  · rw [registered, if_neg fun back => apart back.symm, free]
  · rw [registered, if_pos (Path.Same.refl _), hit]
    rfl
  · intro task pending
    rw [registered, if_pos (Path.Same.refl _)] at pending
    cases pending
    rw [doing?_schedule sound.fresh sound.backed, if_pos rfl, place]

theorem Current.relocates (current : cache.Current) (sound : cache.Sound) (rooted : cache.Rooted)
    (apart : ¬ source.Same destination) (mapped : cache.mapped.get? source = some id)
    (found : cache.entry? id = some entry) :
    Relocates cache (cache.moveFile source destination).2 source destination id entry := by
  have moves := moves_moveFile cache source destination
  obtain ⟨cancelled, sound', store, free, -⟩ := current.readied sound source destination
  have owner : ∀ {task}, cache.pending.get? source = some task →
      ∃ job, cache.doing? task = some (.upload job) ∧ job.entry = id := by
    intro task registered
    obtain ⟨job, doing, held⟩ := current.owner registered
    rw [mapped] at held
    exact ⟨job, doing, (Option.some.inj held).symm⟩
  generalize ((cache.cancel source).2.cancel destination).2 = base
    at moves cancelled sound' store free
  have here : base.mapped.get? source = some id := store.mapped ▸ mapped
  have moved := Resettles.relocate cancelled rooted store apart here found
  have work := (SameWork.refl base).relocate source destination id
  have nothing : ∀ {other}, AtEither source destination other →
      (base.relocate source destination id).pending.get? other = none :=
    fun touched => by rw [work.pending, free touched]
  generalize (cache.moveFile source destination).2 = after at moves
  cases moves with
  | same same => exact absurd same apart
  | absent _ nowhere _ => rw [here] at nowhere; cases nowhere
  | discarded _ nowhere _ => rw [here] at nowhere; cases nowhere
  | moved _ mapped' idle =>
      rw [here] at mapped'
      cases mapped'
      rw [cancel_hit sound.backed] at idle
      refine ⟨moved, nothing (.inl (.refl _)), ?_, owner, ?_⟩
      · rw [nothing (.inr (.refl _)), idle]
        rfl
      · intro task registered
        rw [nothing (.inr (.refl _))] at registered
        cases registered
  | rescheduled _ mapped' hit =>
      rw [here] at mapped'
      cases mapped'
      rw [cancel_hit sound.backed] at hit
      have age : ((Cache.entry? (base.relocate source destination id) id).map Entry.epoch).getD 0
          = entry.epoch := by
        rw [moved.renamed]
        rfl
      rw [age]
      exact moved.reschedule (work.sound sound') apart (nothing (.inl (.refl _))) hit owner

theorem Current.clears (current : cache.Current) (sound : cache.Sound) (rooted : cache.Rooted)
    (apart : ¬ source.Same destination) (nowhere : cache.mapped.get? source = none) :
    Clears cache (cache.moveFile source destination).2 source destination := by
  have moves := moves_moveFile cache source destination
  obtain ⟨cancelled, -, store, free, -⟩ := current.readied sound source destination
  generalize ((cache.cancel source).2.cancel destination).2 = base at moves cancelled store free
  rw [← store.mapped] at nowhere
  generalize (cache.moveFile source destination).2 = after at moves
  cases moves with
  | same same => exact absurd same apart
  | absent _ _ unused =>
      refine ⟨fun touched => ?_, free, fun taken => ?_⟩
      · rcases touched with here | there
        · rw [← PathMap.get?_congr here, nowhere]
        · rw [← PathMap.get?_congr there, unused]
      · rw [← store.mapped, unused] at taken
        cases taken
  | @discarded displaced _ _ taken =>
      have work := ((SameWork.refl base).setMapped (base.mapped.erase destination)).closeEntry
        displaced
      refine ⟨fun touched => ?_, fun touched => ?_, fun held => ?_⟩
      · rw [(SameTables.closeEntry _ _).mapped, PathMap.get?_erase]
        split
        · rfl
        · rename_i away
          rcases touched with here | there
          · rw [← PathMap.get?_congr here, nowhere]
          · exact absurd there away
      · rw [work.pending, free touched]
      · rw [← store.mapped, taken] at held
        cases held
        exact .unmap cancelled rooted store taken
  | moved _ mapped _ => rw [nowhere] at mapped; cases mapped
  | rescheduled _ mapped _ => rw [nowhere] at mapped; cases mapped

theorem moveFile_ok (apart : ¬ source.Same destination) :
    (cache.moveFile source destination).1 = .ok () := by
  unfold moveFile
  rw [if_neg apart]
  simp only
  split
  · split <;> rfl
  · split <;> rfl

/-- As long as nobody else asks for uploads, a move takes the entry at one place to the other,
changed in nothing but its path, and its upload, if there was one, starts again there.  What was
at the other place is discarded in any case.  Handles, timers and all that is somewhere else
are as they were. -/
theorem moveFile_relocates (mount : Mount) (steps : Nat → Step)
    (unasked : ∀ n, (steps n).asks = false) (n : Nat) (source destination : Path)
    (apart : ¬ source.Same destination) :
    (Cache.moveFile (mount.cache.after steps n) source destination).1 = .ok () ∧
    (∀ id, (mount.cache.after steps n).mapped.get? source = some id →
      ∃ entry, Cache.entry? (mount.cache.after steps n) id = some entry ∧
        Relocates (mount.cache.after steps n)
          (Cache.moveFile (mount.cache.after steps n) source destination).2
          source destination id entry) ∧
    ((mount.cache.after steps n).mapped.get? source = none →
      Clears (mount.cache.after steps n)
        (Cache.moveFile (mount.cache.after steps n) source destination).2 source destination) ∧
    (Cache.moveFile (mount.cache.after steps n) source destination).2.handles
      = (mount.cache.after steps n).handles ∧
    (Cache.moveFile (mount.cache.after steps n) source destination).2.counter
      = (mount.cache.after steps n).counter ∧
    Confined (AtEither source destination)
      (fun id => (mount.cache.after steps n).mapped.get? source = some id ∨
        (mount.cache.after steps n).mapped.get? destination = some id)
      (mount.cache.after steps n)
      (Cache.moveFile (mount.cache.after steps n) source destination).2 := by
  have current := current_after mount unasked n
  have sound := sound_after mount steps n
  have rooted := rooted_after mount steps n
  have unmaps := Unmaps.moveFile (mount.cache.after steps n) source destination
  refine ⟨moveFile_ok apart, fun id mapped => ?_, current.clears sound rooted apart,
    unmaps.handles, unmaps.counter, current.confined_moveFile sound rooted source destination⟩
  obtain ⟨entry, found⟩ := Option.isSome_iff_exists.mp (rooted.referred (.inr ⟨source, mapped⟩))
  exact ⟨entry, found, current.relocates sound rooted apart mapped found⟩

/-- One file was closed and waits for its upload; another one is open. -/
def idleBesideOpen : List Step :=
  [.openFile ⟨[97]⟩ .readWrite 4 .now, .closeHandle 1, .openFile ⟨[98]⟩ .readOnly 2 .now]

/-- The first is moved onto the second, then something that is not there onto the first. -/
theorem idleBesideOpen_relocated :
    (∀ n, (scripted idleBesideOpen n).asks = false) ∧
    ((mountWith 0).cache.after (scripted idleBesideOpen) 3).pending.get? ⟨[97]⟩ = some 0 ∧
    ((mountWith 0).cache.after (scripted idleBesideOpen) 3).mapped.get? ⟨[98]⟩ = some 1 ∧
    (∃ entry, Cache.entry? ((mountWith 0).cache.after (scripted idleBesideOpen) 3) 0 = some entry ∧
      Relocates ((mountWith 0).cache.after (scripted idleBesideOpen) 3)
        (Cache.moveFile ((mountWith 0).cache.after (scripted idleBesideOpen) 3) ⟨[97]⟩ ⟨[98]⟩).2
        ⟨[97]⟩ ⟨[98]⟩ 0 entry) ∧
    Clears ((mountWith 0).cache.after (scripted idleBesideOpen) 3)
      (Cache.moveFile ((mountWith 0).cache.after (scripted idleBesideOpen) 3) ⟨[99]⟩ ⟨[97]⟩).2
      ⟨[99]⟩ ⟨[97]⟩ := by
  have unasked := @scripted_forall idleBesideOpen (·.asks = false) (by decide) rfl
  obtain ⟨-, onto, -⟩ := moveFile_relocates (mountWith 0) _ unasked 3 ⟨[97]⟩ ⟨[98]⟩ (by decide)
  obtain ⟨-, -, nothing, -⟩ :=
    moveFile_relocates (mountWith 0) _ unasked 3 ⟨[99]⟩ ⟨[97]⟩ (by decide)
  exact ⟨unasked, by decide, by decide, onto 0 (by decide), nothing (by decide)⟩

end SparseCache.Cache
