import JingjieAR.AsyncLoggingModel
import Mathlib.Tactic.Common

/-! The log loses nothing and keeps the order while it runs: what was written, what the log's
thread has still to write and what the front end holds are together what was appended. `stop`
writes out the lines before it, unless its flag is cleared between the last swap of a round and
the test at the end of the round. -/
namespace JingjieAR.AsyncLogging

open Runs (Run Guarded)

variable {s s' : AsyncLogging} {e : LogEvent} {events : List LogEvent} {line : Bytes} {k : ℕ}

/-- The bytes in a row of buffers. -/
def contents (buffers : List BufferPtr) : Bytes :=
  buffers.flatMap (fun buffer => (buffer.map FixedBuffer.data).getD [])

@[simp] theorem contents_nil : contents [] = [] := rfl

@[simp] theorem contents_append (buffers buffers' : List BufferPtr) :
    contents (buffers++buffers') = contents buffers++contents buffers' :=
  List.flatMap_append

@[simp] theorem contents_cons (buffer : LargeBuffer) (buffers : List BufferPtr) :
    contents (some buffer :: buffers) = buffer.data++contents buffers := rfl

/-- The buffers whose turn to be written is still to come. -/
def unwritten (s : AsyncLogging) : List BufferPtr :=
  match s.consumer with
  | .writing k => s.buffersToWrite.drop k
  | _ => []

/-- What the thread of the log has come to have. -/
def taken (s : AsyncLogging) : Bytes := s.output++contents s.unwritten

/-- What is appended and not yet taken. -/
def waiting (s : AsyncLogging) : Bytes := contents s.buffers++contents [s.currentBuffer]

/-- Where the spare buffers are, by the place of the thread in its round. -/
def Supplied (s : AsyncLogging) : Prop :=
  match s.consumer with
  | .notStarted => s.buffersToWrite = []
  | .entering => s.buffersToWrite = [] ∧ s.newbuffer1.isSome ∧ s.newbuffer2.isSome
  | .waiting => s.buffersToWrite = [] ∧ s.newbuffer1.isSome ∧ s.newbuffer2.isSome
  | .writing _ => s.newbuffer1 = none ∧ 1 ≤ s.buffersToWrite.length ∧
      (s.newbuffer2 = none → 2 ≤ s.buffersToWrite.length)
  | .refilling1 => s.newbuffer1 = none ∧ 1 ≤ s.buffersToWrite.length ∧
      (s.newbuffer2 = none → 2 ≤ s.buffersToWrite.length)
  | .refilling2 => s.newbuffer1.isSome ∧
      (s.newbuffer2 = none → 1 ≤ s.buffersToWrite.length)
  | .testing => s.buffersToWrite = [] ∧ s.newbuffer1.isSome ∧ s.newbuffer2.isSome
  | .exited => True

/-- A buffer that may be handed over is empty. -/
def Blank (buffer : BufferPtr) : Prop := ∀ b, buffer = some b → b.data = []

structure Inv (s : AsyncLogging) : Prop where
  kept : s.taken++s.waiting = s.appended.flatten
  current : s.currentBuffer.isSome
  full : ∀ buffer ∈ s.buffers++s.buffersToWrite, buffer.isSome
  -- the spare of the front end is only gone while there is something to write
  queued : s.nextBuffer = none → s.buffers ≠ []
  blank : Blank s.nextBuffer ∧ Blank s.newbuffer1 ∧ Blank s.newbuffer2
  supplied : s.Supplied

/-- What the thread of the log does next. -/
inductive Advance (s : AsyncLogging) : AsyncLogging → Prop
  | wait (hc : s.consumer = .entering) (hrunning : s.running = true) :
      Advance s { s with consumer := .waiting }
  | swap (hc : s.consumer = .entering ∨ s.consumer = .waiting) : Advance s s.swap
  | written {k : ℕ} {buffer : LargeBuffer} (hc : s.consumer = .writing k)
      (hk : s.buffersToWrite[k]? = some (some buffer)) :
      Advance s { s with output := s.output++buffer.data, consumer := .writing (k+1) }
  | wrote {k : ℕ} (hc : s.consumer = .writing k) (hk : s.buffersToWrite[k]? = none) :
      Advance s { s with buffersToWrite := s.buffersToWrite.take 2, consumer := .refilling1 }
  | refilled1 {spare : BufferPtr} {rest : List BufferPtr} (hc : s.consumer = .refilling1)
      (hrefill : refill s.newbuffer1 s.buffersToWrite = some (spare, rest)) :
      Advance s { s with newbuffer1 := spare, buffersToWrite := rest, consumer := .refilling2 }
  | refilled2 {spare : BufferPtr} {rest : List BufferPtr} (hc : s.consumer = .refilling2)
      (hrefill : refill s.newbuffer2 s.buffersToWrite = some (spare, rest)) :
      Advance s { s with newbuffer2 := spare, buffersToWrite := [], consumer := .testing }
  | goOn (hc : s.consumer = .testing) (hrunning : s.running = true) :
      Advance s { s with consumer := .entering }
  | leave (hc : s.consumer = .testing) (hrunning : s.running = false) :
      Advance s { s with consumer := .exited }

theorem advance_cases (hs : s.advance = some s') : s.Advance s' := by
  unfold advance at hs
  split at hs
  · next hc =>
    split_ifs at hs with hwait
    · obtain ⟨-, hrunning⟩ := by simpa using hwait
      exact Option.some.inj hs ▸ .wait hc hrunning
    · exact Option.some.inj hs ▸ .swap (.inl hc)
  · next hc => exact Option.some.inj hs ▸ .swap (.inr hc)
  · next k hc =>
    unfold write at hs
    split at hs
    · next buffer hk => exact Option.some.inj hs ▸ .written hc hk
    · simp at hs
    · next hk => exact Option.some.inj hs ▸ .wrote hc hk
  · next hc =>
    obtain ⟨⟨spare, rest⟩, hrefill, rfl⟩ := Option.map_eq_some_iff.mp hs
    exact .refilled1 hc hrefill
  · next hc =>
    obtain ⟨⟨spare, rest⟩, hrefill, rfl⟩ := Option.map_eq_some_iff.mp hs
    exact .refilled2 hc hrefill
  · next hc =>
    obtain rfl := Option.some.inj hs
    by_cases hrunning : s.running = true
    · rw [if_pos hrunning]
      exact .goOn hc hrunning
    · rw [if_neg hrunning]
      exact .leave hc (by simpa using hrunning)
  · simp at hs
  · simp at hs

/-- A blank buffer, or a new one, has room for a line. -/
theorem data_append_blank {buffer : BufferPtr} (hblank : Blank buffer)
    (hline : line.length < kLargeBufferSize) : ((buffer.getD {}).append line).data = line := by
  have hdata : (buffer.getD {}).data = [] := by
    cases buffer with
    | none => rfl
    | some b => exact hblank b rfl
  have hroom : line.length < (buffer.getD {}).avail := by
    unfold FixedBuffer.avail
    rw [hdata]
    exact hline
  rw [FixedBuffer.data_append hroom, hdata, List.nil_append]

/-- What is taken and what the spares are do not depend on the front end. -/
theorem Inv.front (h : s.Inv) {buffers : List BufferPtr} {current : LargeBuffer} {next : BufferPtr}
    (hwaiting : contents buffers++current.data = s.waiting++line)
    (hfull : ∀ buffer ∈ buffers, buffer.isSome) (hqueued : next = none → buffers ≠ [])
    (hblank : Blank next) :
    Inv { s with
      buffers := buffers, currentBuffer := some current, nextBuffer := next
      appended := s.appended++[line] } := by
  refine ⟨?_, rfl, ?_, hqueued, ⟨hblank, h.blank.2⟩, h.supplied⟩
  · show s.taken++(contents buffers++(current.data++[])) = (s.appended++[line]).flatten
    have hkept := h.kept
    rw [List.append_nil, hwaiting, ← List.append_assoc, hkept, List.flatten_append]
    simp
  · intro buffer hmem
    rcases List.mem_append.mp hmem with hfront | hback
    · exact hfull buffer hfront
    · exact h.full buffer (List.mem_append_right _ hback)

theorem Inv.append (h : s.Inv) (hline : line.length < kLargeBufferSize)
    (hs : s.append line = some s') : s'.Inv := by
  obtain ⟨current, hcurrent⟩ := Option.isSome_iff_exists.mp h.current
  have hwaiting : s.waiting = contents s.buffers++current.data := by
    unfold AsyncLogging.waiting
    rw [hcurrent, contents_cons, contents_nil, List.append_nil]
  have hfull : ∀ buffer ∈ s.buffers, buffer.isSome :=
    fun buffer hmem => h.full buffer (List.mem_append_left _ hmem)
  simp only [AsyncLogging.append, hcurrent] at hs
  split_ifs at hs with hroom
  · obtain rfl := Option.some.inj hs
    refine h.front ?_ hfull h.queued h.blank.1
    rw [FixedBuffer.data_append hroom, hwaiting, List.append_assoc]
  · -- the full buffer goes to the queue, and the line into a blank one
    obtain rfl := Option.some.inj hs
    refine h.front ?_ ?_ (by simp) (by simp [Blank])
    · rw [data_append_blank h.blank.1 hline, hwaiting, contents_append, contents_cons,
        contents_nil, List.append_nil]
    · intro buffer hmem
      rcases List.mem_append.mp hmem with hold | hlast
      · exact hfull buffer hold
      · rw [List.mem_singleton.mp hlast]
        rfl

/-- The thread takes all there is, and leaves blank buffers behind. -/
theorem taken_swap (hunwritten : s.unwritten = []) :
    s.swap.taken = s.taken++s.waiting := by
  show s.output++contents (s.buffers++[s.currentBuffer]) = _
  simp [taken, waiting, hunwritten]

theorem Inv.swap (h : s.Inv) (hconsumer : s.consumer = .entering ∨ s.consumer = .waiting) :
    s.swap.Inv := by
  have hsupplied : s.buffersToWrite = [] ∧ s.newbuffer1.isSome ∧ s.newbuffer2.isSome := by
    have hplace := h.supplied
    rcases hconsumer with hc | hc <;> simpa only [Supplied, hc] using hplace
  obtain ⟨hnone, hsome1, hsome2⟩ := hsupplied
  have hunwritten : s.unwritten = [] := by
    rcases hconsumer with hc | hc <;> simp only [unwritten, hc]
  obtain ⟨b, hb⟩ := Option.isSome_iff_exists.mp hsome1
  obtain ⟨hblank, hblank1, hblank2⟩ := h.blank
  -- the spare that becomes the current buffer is blank
  have hkept : s.taken++s.waiting = s.swap.taken++s.swap.waiting := by
    have hwaiting : s.swap.waiting = [] := by
      show contents s.buffersToWrite++contents [s.newbuffer1] = []
      rw [hnone, hb, contents_cons, hblank1 b hb]
      rfl
    rw [taken_swap hunwritten, hwaiting, List.append_nil]
  refine ⟨hkept ▸ h.kept, hsome1, ?_, ?_, ?_, ?_⟩
  · show ∀ buffer ∈ s.buffersToWrite++(s.buffers++[s.currentBuffer]), buffer.isSome
    intro buffer hmem
    rw [hnone, List.nil_append] at hmem
    rcases List.mem_append.mp hmem with hold | hlast
    · exact h.full buffer (List.mem_append_left _ hold)
    · rw [List.mem_singleton.mp hlast]
      exact h.current
  · -- the front end has a spare again
    show (if s.nextBuffer.isSome then s.nextBuffer else s.newbuffer2) = none → _
    split_ifs with hnext
    · intro hgone
      simp [hgone] at hnext
    · intro hgone
      simp [hgone] at hsome2
  · show Blank (if s.nextBuffer.isSome then s.nextBuffer else s.newbuffer2) ∧ Blank none ∧
      Blank (if s.nextBuffer.isSome then s.newbuffer2 else none)
    have hgone : Blank none := by simp [Blank]
    split_ifs
    · exact ⟨hblank, hgone, hblank2⟩
    · exact ⟨hblank2, hgone, hgone⟩
  · show none = none ∧ 1 ≤ (s.buffers++[s.currentBuffer]).length ∧
      ((if s.nextBuffer.isSome then s.newbuffer2 else none) = none →
        2 ≤ (s.buffers++[s.currentBuffer]).length)
    rw [List.length_append, List.length_singleton]
    refine ⟨rfl, by omega, ?_⟩
    split_ifs with hnext
    · intro hgone
      simp [hgone] at hsome2
    · -- the spare that went to the front end leaves a second buffer in the queue
      intro _
      have hqueued := h.queued (by simpa using hnext)
      have hpos := List.length_pos_iff.mpr hqueued
      omega

/-- A step of the thread between two critical sections. -/
theorem Inv.back (h : s.Inv) (hbuffers : s'.buffers = s.buffers)
    (hcurrent : s'.currentBuffer = s.currentBuffer) (hnext : s'.nextBuffer = s.nextBuffer)
    (happended : s'.appended = s.appended) (htaken : s'.taken = s.taken)
    (hfull : ∀ buffer ∈ s'.buffersToWrite, buffer.isSome)
    (hblank : Blank s'.newbuffer1 ∧ Blank s'.newbuffer2) (hsupplied : s'.Supplied) : s'.Inv := by
  have hwaiting : s'.waiting = s.waiting := by simp only [waiting, hbuffers, hcurrent]
  refine ⟨?_, ?_, ?_, ?_, ⟨hnext ▸ h.blank.1, hblank⟩, hsupplied⟩
  · rw [htaken, hwaiting, happended]
    exact h.kept
  · rw [hcurrent]
    exact h.current
  · intro buffer hmem
    rcases List.mem_append.mp hmem with hfront | hback
    · exact h.full buffer (List.mem_append_left _ (hbuffers ▸ hfront))
    · exact hfull buffer hback
  · rw [hnext, hbuffers]
    exact h.queued

/-- Where the spares are while there is something to write, and after it. -/
theorem Inv.writing (h : s.Inv) (hc : s.consumer = .writing k) : s.newbuffer1 = none ∧
    1 ≤ s.buffersToWrite.length ∧ (s.newbuffer2 = none → 2 ≤ s.buffersToWrite.length) := by
  have hplace := h.supplied
  rwa [Supplied, hc] at hplace

/-- A spare that is there stays; else the last buffer is taken, if there is one. -/
theorem refill_spec {spare : BufferPtr} {buffersToWrite : List BufferPtr}
    (hfull : ∀ buffer ∈ buffersToWrite, buffer.isSome) (hblank : Blank spare)
    (hsome : spare = none → 1 ≤ buffersToWrite.length) :
    ∃ spare' rest, refill spare buffersToWrite = some (spare', rest) ∧ spare'.isSome ∧
      Blank spare' ∧ (∀ buffer ∈ rest, buffer.isSome) ∧
      (spare = none → rest.length+1 = buffersToWrite.length) := by
  cases spare with
  | some buffer => exact ⟨some buffer, buffersToWrite, rfl, rfl, hblank, hfull, by simp⟩
  | none =>
    have hne : buffersToWrite ≠ [] := List.length_pos_iff.mp (hsome rfl)
    obtain ⟨buffer, hbuffer⟩ :=
      Option.isSome_iff_exists.mp (hfull _ (List.getLast_mem hne))
    have hlast : buffersToWrite.getLast? = some (some buffer) := by
      rw [List.getLast?_eq_some_getLast hne, hbuffer]
    refine ⟨some buffer.reset, buffersToWrite.dropLast, ?_, rfl, ?_, ?_, ?_⟩
    · simp only [refill, hlast]
    · intro b hb
      obtain rfl := Option.some.inj hb
      rfl
    · intro other hmem
      exact hfull other (List.mem_of_mem_dropLast hmem)
    · intro _
      have hpos := List.length_pos_iff.mpr hne
      rw [List.length_dropLast]
      omega

/-- A step of the thread between two critical sections takes nothing and gives nothing back. -/
theorem taken_advance (hc : s.consumer ≠ .entering) (hc' : s.consumer ≠ .waiting)
    (hadvance : s.Advance s') : s'.taken = s.taken := by
  cases hadvance with
  | wait h => exact absurd h hc
  | swap h => exact absurd h (by simp [hc, hc'])
  | @written k buffer h hk =>
    have hunwritten : s.unwritten = s.buffersToWrite.drop k := by simp only [unwritten, h]
    obtain ⟨hlt, hget⟩ := List.getElem?_eq_some_iff.mp hk
    -- the buffer moves from the ones to be written to the output
    have hdrop : s.buffersToWrite.drop k = some buffer :: s.buffersToWrite.drop (k+1) := by
      rw [List.drop_eq_getElem_cons hlt, hget]
    show (s.output++buffer.data)++contents (s.buffersToWrite.drop (k+1)) = _
    rw [taken, hunwritten, hdrop, contents_cons, List.append_assoc]
  | @wrote k h hk =>
    have hunwritten : s.unwritten = s.buffersToWrite.drop k := by simp only [unwritten, h]
    have hdrop : s.buffersToWrite.drop k = [] :=
      List.drop_eq_nil_of_le (List.getElem?_eq_none_iff.mp hk)
    show s.output++[] = _
    rw [taken, hunwritten, hdrop]
    rfl
  | refilled1 h => simp only [taken, unwritten, h]
  | refilled2 h => simp only [taken, unwritten, h]
  | goOn h => simp only [taken, unwritten, h]
  | leave h => simp only [taken, unwritten, h]

theorem Inv.advance (h : s.Inv) (hadvance : s.Advance s') : s'.Inv := by
  have hfull : ∀ buffer ∈ s.buffersToWrite, buffer.isSome :=
    fun buffer hmem => h.full buffer (List.mem_append_right _ hmem)
  have hplace := h.supplied
  have htaken := fun hc hc' => taken_advance hc hc' hadvance
  obtain ⟨-, hblank1, hblank2⟩ := h.blank
  cases hadvance with
  | wait hc =>
    simp only [Supplied, hc] at hplace
    exact h.back rfl rfl rfl rfl (by simp only [taken, unwritten, hc]) hfull h.blank.2 hplace
  | swap hc => exact h.swap hc
  | written hc hk =>
    exact h.back rfl rfl rfl rfl (htaken (by simp [hc]) (by simp [hc])) hfull h.blank.2
      (h.writing hc)
  | wrote hc hk =>
    obtain ⟨hspare, hone, htwo⟩ := h.writing hc
    refine h.back rfl rfl rfl rfl (htaken (by simp [hc]) (by simp [hc])) ?_ h.blank.2
      ⟨hspare, ?_, ?_⟩
    · intro buffer hmem
      exact hfull buffer (List.mem_of_mem_take hmem)
    · show 1 ≤ (s.buffersToWrite.take 2).length
      rw [List.length_take]
      omega
    · show s.newbuffer2 = none → 2 ≤ (s.buffersToWrite.take 2).length
      intro hgone
      have hlength := htwo hgone
      rw [List.length_take]
      omega
  | refilled1 hc hrefill =>
    have hsame := htaken (by simp [hc]) (by simp [hc])
    simp only [Supplied, hc] at hplace
    obtain ⟨hspare, hone, htwo⟩ := hplace
    obtain ⟨spare, rest, hrefill', hsome, hblank', hrest, hlength⟩ :=
      refill_spec hfull hblank1 (fun _ => hone)
    obtain ⟨rfl, rfl⟩ := by simpa using hrefill.symm.trans hrefill'
    refine h.back rfl rfl rfl rfl hsame hrest ⟨hblank', hblank2⟩ ⟨hsome, ?_⟩
    -- with both spares gone there were two buffers, and one is left for the second refill
    intro hgone
    have hleft := htwo hgone
    have htook := hlength hspare
    dsimp only
    omega
  | refilled2 hc hrefill =>
    have hsame := htaken (by simp [hc]) (by simp [hc])
    simp only [Supplied, hc] at hplace
    obtain ⟨hsome1, hone⟩ := hplace
    obtain ⟨spare, rest, hrefill', hsome, hblank', -, -⟩ := refill_spec hfull hblank2 hone
    obtain ⟨rfl, rfl⟩ := by simpa using hrefill.symm.trans hrefill'
    exact h.back rfl rfl rfl rfl hsame (by simp) ⟨hblank1, hblank'⟩ ⟨rfl, hsome1, hsome⟩
  | goOn hc =>
    have hsame := htaken (by simp [hc]) (by simp [hc])
    simp only [Supplied, hc] at hplace
    exact h.back rfl rfl rfl rfl hsame hfull h.blank.2 hplace
  | leave hc =>
    have hsame := htaken (by simp [hc]) (by simp [hc])
    exact h.back rfl rfl rfl rfl hsame hfull h.blank.2 trivial

theorem Inv.step (h : s.Inv) (hshort : s.ShortLines e) (hs : s.Step e s') : s'.Inv := by
  cases e with
  | start =>
    simp only [Step, next] at hs
    split at hs
    · next hc =>
      obtain rfl := Option.some.inj hs
      have hnone : s.buffersToWrite = [] := by simpa only [Supplied, hc] using h.supplied
      refine h.back rfl rfl rfl rfl (by simp only [taken, unwritten, hc, start]) ?_ ?_
        ⟨hnone, rfl, rfl⟩
      · exact fun buffer hmem => h.full buffer (List.mem_append_right _ hmem)
      · simp [Blank, start]
    · simp at hs
  | append line => exact h.append hshort hs
  | advance => exact h.advance (advance_cases hs)
  | stop =>
    simp only [Step, next] at hs
    split at hs
    · obtain rfl := Option.some.inj hs
      exact ⟨h.kept, h.current, h.full, h.queued, h.blank, h.supplied⟩
    · simp at hs
  | clear =>
    simp only [Step, next] at hs
    split at hs
    · obtain rfl := Option.some.inj hs
      exact ⟨h.kept, h.current, h.full, h.queued, h.blank, h.supplied⟩
    · simp at hs
  | join =>
    simp only [Step, next] at hs
    split at hs
    · obtain rfl := Option.some.inj hs
      exact ⟨h.kept, h.current, h.full, h.queued, h.blank, h.supplied⟩
    · simp at hs

theorem inv_of_run (hr : Run (Guarded ShortLines Step) {} events s) : s.Inv := by
  have hstart : Inv {} := by
    refine ⟨rfl, rfl, by simp, by simp, ⟨?_, by simp [Blank], by simp [Blank]⟩, rfl⟩
    intro b hb
    obtain rfl := Option.some.inj hb
    rfl
  have hstep : ∀ (s : AsyncLogging) (e : LogEvent) (s' : AsyncLogging),
      s.Inv → Guarded ShortLines Step s e s' → s'.Inv :=
    fun s e s' hinv hs => hinv.step hs.1 hs.2
  exact hr.invariant hstep hstart

/-- No refill asks an empty vector for its last buffer. -/
def RefillsSafely (s : AsyncLogging) : Prop :=
  (s.consumer = .refilling1 → s.newbuffer1 = none → s.buffersToWrite ≠ []) ∧
    (s.consumer = .refilling2 → s.newbuffer2 = none → s.buffersToWrite ≠ [])

theorem Inv.refillsSafely (h : s.Inv) : s.RefillsSafely := by
  have hplace := h.supplied
  constructor
  · intro hc _
    simp only [Supplied, hc] at hplace
    exact List.length_pos_iff.mp hplace.2.1
  · intro hc hgone
    simp only [Supplied, hc] at hplace
    exact List.length_pos_iff.mp (hplace.2 hgone)

/-- However appends run into the rounds of the log's thread: what was written, what is to be
written, and what is queued and in the current buffer are the lines in the order in which they
were appended. -/
theorem lines_kept (hr : Run (Guarded ShortLines Step) {} events s) :
    s.output++contents s.unwritten++contents s.buffers++contents [s.currentBuffer] =
      s.appended.flatten ∧ s.currentBuffer ≠ none ∧ s.RefillsSafely := by
  have hinv := inv_of_run hr
  refine ⟨?_, ?_, hinv.refillsSafely⟩
  · rw [← hinv.kept, taken, waiting]
    simp only [List.append_assoc]
  · intro hnone
    have hsome := hinv.current
    rw [hnone] at hsome
    simp at hsome

/-- The thread does not get stuck on a pointer or a vector that has nothing for it. -/
theorem Inv.advance_isSome (h : s.Inv) (hstarted : s.consumer ≠ .notStarted)
    (hexited : s.consumer ≠ .exited) : s.advance.isSome := by
  have hfull : ∀ buffer ∈ s.buffersToWrite, buffer.isSome :=
    fun buffer hmem => h.full buffer (List.mem_append_right _ hmem)
  have hplace := h.supplied
  unfold AsyncLogging.advance
  cases hc : s.consumer with
  | notStarted => exact absurd hc hstarted
  | exited => exact absurd hc hexited
  | entering =>
    dsimp only
    split_ifs <;> rfl
  | waiting => rfl
  | testing => rfl
  | writing k =>
    show (s.write k).isSome
    unfold AsyncLogging.write
    cases hk : s.buffersToWrite[k]? with
    | none => rfl
    | some buffer =>
      obtain ⟨b, rfl⟩ := Option.isSome_iff_exists.mp (hfull _ (List.mem_of_getElem? hk))
      rfl
  | refilling1 =>
    simp only [Supplied, hc] at hplace
    obtain ⟨spare, rest, hrefill, -⟩ := refill_spec hfull h.blank.2.1 (fun _ => hplace.2.1)
    simp [hrefill]
  | refilling2 =>
    simp only [Supplied, hc] at hplace
    obtain ⟨spare, rest, hrefill, -⟩ := refill_spec hfull h.blank.2.2 hplace.2
    simp [hrefill]

/-- One byte is a short line. -/
theorem short_byte (b : UInt8) : ([b] : Bytes).length < kLargeBufferSize := by
  show 1 < 4000*1000
  decide

/-- Two lines, the second while the thread waits; a third one while it writes. -/
def keptLines : List LogEvent :=
  [.start, .append [104], .advance, .append [105], .advance, .append [106], .advance, .advance,
    .advance, .advance]

theorem keptLines_kept : ∃ s, Run (Guarded ShortLines Step) {} keptLines s ∧
    s.consumer = .testing ∧ s.output = [104, 105] ∧ s.appended = [[104], [105], [106]] ∧
    s.currentBuffer ≠ none := by
  have hrun : ∃ s, Run (Guarded ShortLines Step) {} keptLines s ∧
      s.consumer = .testing ∧ s.output = [104, 105] ∧ s.appended = [[104], [105], [106]] :=
    ⟨_, .cons ⟨trivial, rfl⟩ <| .cons ⟨short_byte _, rfl⟩ <| .cons ⟨trivial, rfl⟩ <|
      .cons ⟨short_byte _, rfl⟩ <| .cons ⟨trivial, rfl⟩ <| .cons ⟨short_byte _, rfl⟩ <|
      .cons ⟨trivial, rfl⟩ <| .cons ⟨trivial, rfl⟩ <| .cons ⟨trivial, rfl⟩ <|
      .cons ⟨trivial, rfl⟩ <| .nil _, rfl, rfl, rfl⟩
  obtain ⟨s, hr, hconsumer, houtput, happended⟩ := hrun
  exact ⟨s, hr, hconsumer, houtput, happended, (lines_kept hr).2.1⟩

/-- The thread is before its swap, or what was appended before `stop` has been taken. -/
def Drains (s : AsyncLogging) : Prop :=
  s.consumer = .entering ∨ s.consumer = .waiting ∨ s.before.flatten.length ≤ s.taken.length

/-- `stop` has cleared `running_`. -/
def Cleared (s : AsyncLogging) : Prop := s.stop ≠ .notCalled ∧ s.stop ≠ .called

/-- What is known of `running_` and of the lines before `stop`. -/
structure Stopping (s : AsyncLogging) : Prop where
  running : ¬s.Cleared → s.consumer ≠ .notStarted → s.running = true
  started : s.stop ≠ .notCalled → s.consumer ≠ .notStarted
  cleared : s.Cleared → s.running = false
  returned : s.stop = .returned → s.consumer = .exited
  before : s.before <+: s.appended

/-- A step of the thread leaves alone what `stop` and `append` write. -/
theorem Advance.frame (hadvance : s.Advance s') : s'.stop = s.stop ∧ s'.running = s.running ∧
    s'.before = s.before ∧ s'.appended = s.appended ∧ s.consumer ≠ .notStarted ∧
      s'.consumer ≠ .notStarted ∧ s.consumer ≠ .exited := by
  cases hadvance with
  | wait hc => simp [hc]
  | swap hc => rcases hc with hc | hc <;> simp [hc, AsyncLogging.swap]
  | written hc => simp [hc]
  | wrote hc => simp [hc]
  | refilled1 hc => simp [hc]
  | refilled2 hc => simp [hc]
  | goOn hc => simp [hc]
  | leave hc => simp [hc]

theorem append_frame (hs : s.append line = some s') : s'.stop = s.stop ∧
    s'.running = s.running ∧ s'.before = s.before ∧ s'.appended = s.appended++[line] ∧
      s'.consumer = s.consumer ∧ s'.taken = s.taken := by
  unfold append at hs
  split at hs
  · simp at hs
  · split_ifs at hs <;> obtain rfl := Option.some.inj hs <;> simp [taken, unwritten]

/-- What the other steps do. -/
theorem start_cases (hs : s.Step .start s') : s.consumer = .notStarted ∧ s' = s.start := by
  simp only [Step, next] at hs
  split at hs
  · next hc => exact ⟨hc, (Option.some.inj hs).symm⟩
  · simp at hs

theorem stop_cases (hs : s.Step .stop s') :
    s.stop = .notCalled ∧ s' = { s with stop := .called, before := s.appended } := by
  simp only [Step, next] at hs
  split at hs
  · next hstop => exact ⟨hstop, (Option.some.inj hs).symm⟩
  · simp at hs

theorem clear_cases (hs : s.Step .clear s') : s.stop = .called ∧
    s' = { s with running := false, stop := if s.running then .joining else .returned } := by
  simp only [Step, next] at hs
  split at hs
  · next hstop => exact ⟨hstop, (Option.some.inj hs).symm⟩
  · simp at hs

theorem join_cases (hs : s.Step .join s') :
    s.stop = .joining ∧ s.consumer = .exited ∧ s' = { s with stop := .returned } := by
  simp only [Step, next] at hs
  split at hs
  · next hstop hc => exact ⟨hstop, hc, (Option.some.inj hs).symm⟩
  · simp at hs

/-- `running_` is cleared by the exchange of `stop` and by nothing else, and once. -/
theorem cleared_step (hs : s.Step e s') (hclear : e ≠ .clear) : s'.Cleared ↔ s.Cleared := by
  cases e with
  | clear => exact absurd rfl hclear
  | start =>
    obtain ⟨-, rfl⟩ := start_cases hs
    rfl
  | append line => simp only [Cleared, (append_frame hs).1]
  | advance => simp only [Cleared, (advance_cases hs).frame.1]
  | stop =>
    obtain ⟨hstop, rfl⟩ := stop_cases hs
    simp [Cleared, hstop]
  | join =>
    obtain ⟨hstop, -, rfl⟩ := join_cases hs
    simp [Cleared, hstop]

theorem clear_clears (hs : s.Step .clear s') : ¬s.Cleared ∧ s'.Cleared := by
  obtain ⟨hstop, rfl⟩ := clear_cases hs
  refine ⟨fun hcleared => hcleared.2 hstop, ?_⟩
  unfold Cleared
  cases s.running <;> simp

theorem Stopping.step (h : s.Stopping) (hcalls : s.Calls e) (hs : s.Step e s') : s'.Stopping := by
  cases e with
  | start =>
    obtain ⟨hc, rfl⟩ := start_cases hs
    have hstop : s.stop = .notCalled := by
      by_contra hcalled
      exact h.started hcalled hc
    exact ⟨fun _ _ => rfl, by simp [AsyncLogging.start], by simp [Cleared, AsyncLogging.start, hstop],
      by simp [AsyncLogging.start, hstop], h.before⟩
  | append line =>
    obtain ⟨hstop, hrunning, hbefore, happended, hconsumer, -⟩ := append_frame hs
    have hcleared : s'.Cleared ↔ s.Cleared := cleared_step hs (by simp)
    refine ⟨?_, ?_, ?_, ?_, ?_⟩
    · rw [hcleared, hrunning, hconsumer]
      exact h.running
    · rw [hstop, hconsumer]
      exact h.started
    · rw [hcleared, hrunning]
      exact h.cleared
    · rw [hstop, hconsumer]
      exact h.returned
    · rw [hbefore, happended]
      exact h.before.trans (List.prefix_append _ _)
  | advance =>
    obtain ⟨hstop, hrunning, hbefore, happended, hstarted, hstarted', hexited⟩ := (advance_cases hs).frame
    have hcleared : s'.Cleared ↔ s.Cleared := cleared_step hs (by simp)
    refine ⟨?_, fun _ => hstarted', ?_, ?_, ?_⟩
    · rw [hcleared, hrunning]
      exact fun hnot _ => h.running hnot hstarted
    · rw [hcleared, hrunning]
      exact h.cleared
    · rw [hstop]
      exact fun hreturned => absurd (h.returned hreturned) hexited
    · rw [hbefore, happended]
      exact h.before
  | stop =>
    have hstarted : s.consumer ≠ .notStarted := hcalls
    obtain ⟨hstop, rfl⟩ := stop_cases hs
    have hrunning := h.running (by simp [Cleared, hstop]) hstarted
    exact ⟨fun _ _ => hrunning, fun _ => hstarted, by simp [Cleared], by simp, List.prefix_refl _⟩
  | clear =>
    have hcleared := (clear_clears hs).2
    obtain ⟨hstop, rfl⟩ := clear_cases hs
    have hstarted := h.started (by simp [hstop])
    have hrunning := h.running (by simp [Cleared, hstop]) hstarted
    exact ⟨fun hnot => absurd hcleared hnot, fun _ => hstarted, fun _ => rfl, by simp [hrunning],
      h.before⟩
  | join =>
    obtain ⟨hstop, hconsumer, rfl⟩ := join_cases hs
    have hcleared := h.cleared ⟨by simp [hstop], by simp [hstop]⟩
    have hstarted := h.started (by simp [hstop])
    exact ⟨by simp [Cleared], fun _ => hstarted, fun _ => hcleared, fun _ => hconsumer, h.before⟩

/-- With `running_` cleared, the end of a round is the end of the thread. -/
theorem Advance.late (hadvance : s.Advance s') (hcleared : s.running = false)
    (hc : s.consumer ≠ .entering) (hc' : s.consumer ≠ .waiting) :
    s'.consumer ≠ .entering ∧ s'.consumer ≠ .waiting := by
  cases hadvance with
  | wait h => exact absurd h hc
  | swap h => exact absurd h (by simp [hc, hc'])
  | written => simp
  | wrote => simp
  | refilled1 => simp
  | refilled2 => simp
  | goOn h hrunning => simp [hcleared] at hrunning
  | leave => simp

/-- Once `running_` is cleared the thread swaps once more, or not at all: whether it comes to have
the lines before `stop` is settled. -/
theorem drains_step (h : s.Inv) (hstopping : s.Stopping) (hcleared : s.Cleared)
    (hs : s.Step e s') : s'.Drains ↔ s.Drains := by
  have hrunning := hstopping.cleared hcleared
  cases e with
  | start =>
    obtain ⟨hc, -⟩ := start_cases hs
    exact absurd hc (hstopping.started hcleared.1)
  | append line =>
    obtain ⟨-, -, hbefore, -, hconsumer, htaken⟩ := append_frame hs
    simp only [Drains, hbefore, hconsumer, htaken]
  | advance =>
    obtain ⟨-, -, hbefore, -⟩ := (advance_cases hs).frame
    by_cases hplace : s.consumer = .entering ∨ s.consumer = .waiting
    · -- the swap is still to come, and takes all
      have hswap : s' = s.swap := by
        rcases hplace with hc | hc <;> simp only [Step, next, advance, hc, hrunning] at hs
        · simpa using hs.symm
        · exact (Option.some.inj hs).symm
      have hunwritten : s.unwritten = [] := by
        rcases hplace with hc | hc <;> simp only [unwritten, hc]
      have hall : s'.taken = s.appended.flatten := by
        rw [hswap, taken_swap hunwritten]
        exact h.kept
      have hlength : s'.before.flatten.length ≤ s'.taken.length := by
        rw [hall, hbefore]
        exact hstopping.before.flatten.length_le
      refine iff_of_true (.inr (.inr hlength)) ?_
      rcases hplace with hc | hc
      · exact .inl hc
      · exact .inr (.inl hc)
    · -- no swap comes any more
      have hc : s.consumer ≠ .entering := fun hc => hplace (.inl hc)
      have hc' : s.consumer ≠ .waiting := fun hc => hplace (.inr hc)
      have htaken := taken_advance hc hc' (advance_cases hs)
      obtain ⟨hlate, hlate'⟩ := (advance_cases hs).late hrunning hc hc'
      simp only [Drains, hbefore, htaken, hc, hc', hlate, hlate', false_or]
  | stop =>
    obtain ⟨hstop, -⟩ := stop_cases hs
    exact absurd hstop hcleared.1
  | clear =>
    obtain ⟨hstop, -⟩ := clear_cases hs
    exact absurd hstop hcleared.2
  | join =>
    obtain ⟨-, -, rfl⟩ := join_cases hs
    rfl

/-- What is known of every state of a run. -/
theorem known_of_run (hr : Run (Guarded Calls Step) {} events s) : s.Inv ∧ s.Stopping := by
  have hstart : Stopping {} := ⟨by simp, by simp, by simp [Cleared], by simp, List.prefix_refl _⟩
  have hstep : ∀ (s : AsyncLogging) (e : LogEvent) (s' : AsyncLogging),
      s.Stopping → Guarded Calls Step s e s' → s'.Stopping :=
    fun s e s' h hs => h.step hs.1 hs.2
  exact ⟨inv_of_run (hr.mono (fun _ _ _ hs => ⟨hs.1.shortLines, hs.2⟩)), hr.invariant hstep hstart⟩

/-- From the clearing of `running_` on. -/
theorem drains_of_run (hr : Run (Guarded Calls Step) s events s') (h : s.Inv)
    (hstopping : s.Stopping) (hcleared : s.Cleared) : s'.Drains ↔ s.Drains := by
  induction hr with
  | nil s => rfl
  | @cons s s₁ s' e events hs ht ih =>
    have hlater : s₁.Cleared := by
      by_cases hclear : e = .clear
      · exact absurd hcleared (clear_clears (hclear ▸ hs.2)).1
      · exact (cleared_step hs.2 hclear).mpr hcleared
    have hdrains := drains_step h hstopping hcleared hs.2
    exact (ih (h.step hs.1.shortLines hs.2) (hstopping.step hs.1 hs.2) hlater).trans hdrains

/-- When the thread has exited, what it has taken is written. -/
theorem written_iff_drains (h : s.Inv) (hbefore : s.before <+: s.appended)
    (hexited : s.consumer = .exited) : s.before.flatten <+: s.output ↔ s.Drains := by
  have htaken : s.taken = s.output := by simp [taken, unwritten, hexited]
  -- output and lines are prefixes of one text, so the shorter one is a prefix of the other
  have hprefix : s.before.flatten <+: s.output++s.waiting := by
    rw [← htaken, h.kept]
    exact hbefore.flatten
  simp only [Drains, hexited, reduceCtorEq, false_or, htaken]
  constructor
  · exact fun hwritten => hwritten.length_le
  · intro hlength
    exact List.prefix_of_prefix_length_le hprefix (List.prefix_append _ _) hlength

/-- When `stop` has returned, the lines before it have been written exactly if the thread was
before its swap, or had them already, when `stop` cleared `running_`. -/
theorem stop_drains_iff (hr : Run (Guarded Calls Step) {} events s)
    (hreturned : s.stop = .returned) :
    ∃ pre post s₁ s₂, events = pre++LogEvent.clear :: post ∧
      Run (Guarded Calls Step) {} pre s₁ ∧ s₁.Step .clear s₂ ∧
      Run (Guarded Calls Step) s₂ post s ∧
      (s.before.flatten <+: s.output ↔ s₁.Drains) := by
  have hnot : ¬Cleared {} := by simp [Cleared]
  have hyes : s.Cleared := ⟨by simp [hreturned], by simp [hreturned]⟩
  obtain ⟨pre, e, post, s₁, s₂, rfl, hpre, hs, hpost, hbefore, hafter⟩ := hr.enters hnot hyes
  -- the step at which the flag goes down
  obtain rfl : e = .clear := by
    by_contra hclear
    exact hbefore ((cleared_step hs.2 hclear).mp hafter)
  obtain ⟨hinv, hstopping⟩ := known_of_run hr
  obtain ⟨hinv₁, hstopping₁⟩ := known_of_run hpre
  have hinv₂ := hinv₁.step hs.1.shortLines hs.2
  have hstopping₂ := hstopping₁.step hs.1 hs.2
  refine ⟨pre, post, s₁, s₂, rfl, hpre, hs.2, hpost, ?_⟩
  have hclear : s₂.Drains ↔ s₁.Drains := by
    obtain ⟨-, rfl⟩ := clear_cases hs.2
    rfl
  rw [written_iff_drains hinv hstopping.before (hstopping.returned hreturned),
    drains_of_run hpost hinv₂ hstopping₂ hafter, hclear]

/-- The thread waits while `stop` clears its flag, and then takes the line and writes it. -/
def drainedLog : List LogEvent :=
  [.start, .append [104], .advance, .stop, .clear, .advance, .advance, .advance, .advance,
    .advance, .advance, .join]

theorem drainedLog_drains : ∃ s, Run (Guarded Calls Step) {} drainedLog s ∧
    s.stop = .returned ∧ s.before = [[104]] ∧ s.output = [104] ∧
    ∃ pre post s₁ s₂, drainedLog = pre++LogEvent.clear :: post ∧
      Run (Guarded Calls Step) {} pre s₁ ∧ s₁.Step .clear s₂ ∧
      Run (Guarded Calls Step) s₂ post s ∧ (s.before.flatten <+: s.output ↔ s₁.Drains) := by
  have hrun : ∃ s, Run (Guarded Calls Step) {} drainedLog s ∧
      s.stop = .returned ∧ s.before = [[104]] ∧ s.output = [104] :=
    ⟨_, .cons ⟨trivial, rfl⟩ <| .cons ⟨short_byte _, rfl⟩ <| .cons ⟨trivial, rfl⟩ <|
      .cons ⟨ConsumerStage.noConfusion, rfl⟩ <| .cons ⟨trivial, rfl⟩ <| .cons ⟨trivial, rfl⟩ <|
      .cons ⟨trivial, rfl⟩ <| .cons ⟨trivial, rfl⟩ <| .cons ⟨trivial, rfl⟩ <|
      .cons ⟨trivial, rfl⟩ <| .cons ⟨trivial, rfl⟩ <| .cons ⟨trivial, rfl⟩ <| .nil _,
      rfl, rfl, rfl⟩
  obtain ⟨s, hr, hstop, hbefore, houtput⟩ := hrun
  exact ⟨s, hr, hstop, hbefore, houtput, stop_drains_iff hr hstop⟩

/-- The thread is past its swap: it ends its round, and does not come for the line. -/
def lostLine : List LogEvent :=
  [.start, .advance, .advance, .append [104], .stop, .clear, .advance, .advance, .advance,
    .advance, .advance, .join]

theorem lostLine_lost : ∃ s, Run (Guarded Calls Step) {} lostLine s ∧ s.stop = .returned ∧
    s.before = [[104]] ∧ s.output = [] ∧ ¬s.before.flatten <+: s.output := by
  refine ⟨_, .cons ⟨trivial, rfl⟩ <| .cons ⟨trivial, rfl⟩ <| .cons ⟨trivial, rfl⟩ <|
    .cons ⟨short_byte _, rfl⟩ <| .cons ⟨ConsumerStage.noConfusion, rfl⟩ <|
    .cons ⟨trivial, rfl⟩ <| .cons ⟨trivial, rfl⟩ <| .cons ⟨trivial, rfl⟩ <|
    .cons ⟨trivial, rfl⟩ <| .cons ⟨trivial, rfl⟩ <| .cons ⟨trivial, rfl⟩ <|
    .cons ⟨trivial, rfl⟩ <| .nil _, rfl, rfl, rfl, ?_⟩
  intro hwritten
  exact absurd hwritten.length_le (by decide)

end JingjieAR.AsyncLogging
