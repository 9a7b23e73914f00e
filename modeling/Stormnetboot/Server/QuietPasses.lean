import Stormnetboot.Server.StatusNotes

/-!
# Passes nothing interferes with

When no more events arrive and every patch is accepted, a pass goes through its snapshot in
rounds, one for each object. A round leaves an object that has the status it should have, and no
other entry is disturbed. So each pass ends with nothing left to patch, or with as many objects
patched as a pass may patch, and after enough passes every live object has its status. This rests
on every entry being the live object as it is, which careful runs provide.
-/

namespace Stormnetboot.Server

open Stormnetboot.Common

/-! ## Settled objects -/

/-- The object has the status it should have, whatever the clock reads. -/
def Observed.Settled (seen : Observed) (mac : Mac) (object : BootHost) : Prop :=
  ∀ now, object.status = some (seen.desired mac now object)

section Settled

variable {seen : Observed} {mac : Mac} {now : Text} {object : BootHost}

/-- What is desired once is desired from then on. -/
theorem Observed.desired_again (seen : Observed) (mac : Mac) (now later : Text)
    (object : BootHost) :
    seen.desired mac later { object with status := some (seen.desired mac now object) } =
      seen.desired mac now object :=
  desiredStatus_again ..

/-- An object with the desired status is settled. -/
theorem Observed.settled_of_eq (h : object.status = some (seen.desired mac now object)) :
    seen.Settled mac object := by
  intro later
  have hobject : object = { object with status := some (seen.desired mac now object) } := by
    rw [← h]
  calc object.status
      = some (seen.desired mac now object) := h
    _ = some (seen.desired mac later { object with
          status := some (seen.desired mac now object) }) := by
        rw [Observed.desired_again]
    _ = some (seen.desired mac later object) := by rw [← hobject]

/-- A patched object is settled. -/
theorem Observed.settled_patched (seen : Observed) (mac : Mac) (now : Text) (object : BootHost) :
    seen.Settled mac { object with status := some (seen.desired mac now object) } :=
  fun later => congrArg some (seen.desired_again mac now later object).symm

end Settled

/-! ## Rounds -/

namespace Writing

/-- The index of the process. -/
abbrev index (s : Writing) : BootHostIndex :=
  s.process.watch.view.index

/-- The state after the events. -/
def after (s : Writing) (events : List WritingEvent) : Writing :=
  events.foldl (fun s event => (s.step event).1) s

/-- A round of the loop: an object is looked at, and if it is patched, the patch is accepted and
noted. -/
def round : List WritingEvent :=
  [.writer .turn, .writer (.answer true), .writer .note]

/-- The state after so many rounds. -/
def rounds : ℕ → Writing → Writing
  | 0, s => s
  | n + 1, s => rounds n (s.after round)

/-- The writer is in this pass, or in none. -/
def withPass (s : Writing) (pass : Option StatusPass) : Writing :=
  { s with process := { s.process with pass := pass } }

/-- A pass with nothing in between: a round for each object, and one to see that it is over. -/
def quietPass (s : Writing) (now : Text) (order : HashMap.Iteration Mac BootHost) : Writing :=
  rounds ((BootHostIndex.snapshot order s.index).length + 1)
    (s.after [.writer (.begin now order)])

/-- Passes at these times, each in an order of its own. -/
def quietPasses (s : Writing) (passes : List (Text × HashMap.Iteration Mac BootHost)) : Writing :=
  passes.foldl (fun s pass => s.quietPass pass.1 pass.2) s

/-- The object under the MAC has been patched and the status noted. -/
def patched (s : Writing) (mac : Mac) (key : ObjectKey) (content : Content)
    (desired : BootHostStatus) : Writing where
  live := s.live.insert key { content with status := some desired }
  pending := s.pending ++ [(Change.edit key { content with status := some desired }).event]
  process := { s.process with watch := s.process.watch.note mac desired }

section Round

variable {s : Writing} {pass : StatusPass} {patch : StatusPatch}

/-- The state after an event, given what the writer does with it. -/
theorem step_writer (s : Writing) {event : WriterEvent} {result : Process × Option Change}
    (h : s.process.write storeWhole s.live event = result) :
    (s.step (.writer event)).1 = s.wrote result := by
  rw [step, h]

/-- A round is a turn, its answer and its note. -/
theorem after_round (s : Writing) :
    s.after round =
      ((((s.step (.writer .turn)).1.step (.writer (.answer true))).1).step (.writer .note)).1 :=
  rfl

/-- Outside a pass nothing happens. -/
theorem round_idle (h : s.process.pass = none) : s.after round = s := by
  have hwalking : ∀ pass, s.process.pass = some pass → pass.stage = .walking := by
    simp only [h, reduceCtorEq, false_imp_iff, implies_true]
  have hturn : (s.step (.writer .turn)).1 = s := s.step_writer (Process.write_turn_idle h)
  have hanswer : (s.step (.writer (.answer true))).1 = s :=
    s.step_writer (Process.write_answer_walking hwalking true)
  have hnote : (s.step (.writer .note)).1 = s := s.step_writer (Process.write_note_walking hwalking)
  rw [after_round, hturn, hanswer, hnote]

/-- In a pass that has nothing to send only the turn happens. -/
theorem round_walking (h : s.process.pass = some pass) (hstage : pass.stage = .walking)
    {next : Option StatusPass} (hturn : pass.turn s.process.seen = next)
    (hnext : ∀ pass', next = some pass' → pass'.stage = .walking) :
    s.after round = s.withPass next := by
  have hfirst : (s.step (.writer .turn)).1 = s.withPass next := by
    rw [← hturn]
    exact s.step_writer (Process.write_turn h hstage)
  have hanswer : ((s.withPass next).step (.writer (.answer true))).1 = s.withPass next :=
    (s.withPass next).step_writer (Process.write_answer_walking hnext true)
  have hnote : ((s.withPass next).step (.writer .note)).1 = s.withPass next :=
    (s.withPass next).step_writer (Process.write_note_walking hnext)
  rw [after_round, hfirst, hanswer, hnote]

/-- A patch of an object that is not live is refused. -/
theorem round_refused (h : s.process.pass = some pass) (hstage : pass.stage = .walking)
    {next : StatusPass} (hturn : pass.turn s.process.seen = some next)
    (hsending : next.stage = .sending patch) (hdead : s.live.lookup patch.key = none) :
    s.after round = s.withPass (some { next with stage := .walking }) := by
  have hfirst : (s.step (.writer .turn)).1 = s.withPass (some next) := by
    rw [← hturn]
    exact s.step_writer (Process.write_turn h hstage)
  have hanswer : ((s.withPass (some next)).step (.writer (.answer true))).1 =
      s.withPass (some { next with stage := .walking }) :=
    (s.withPass (some next)).step_writer (Process.write_refused rfl hsending fun _ => hdead)
  have hnote : ((s.withPass (some { next with stage := .walking })).step (.writer .note)).1 =
      s.withPass (some { next with stage := .walking }) := rfl
  rw [after_round, hfirst, hanswer, hnote]

/-- A patch of a live object is stored and noted. -/
theorem round_patched (h : s.process.pass = some pass) (hstage : pass.stage = .walking)
    {next : StatusPass} (hturn : pass.turn s.process.seen = some next)
    (hsending : next.stage = .sending patch) {content : Content}
    (hlive : s.live.lookup patch.key = some content) :
    s.after round = (s.patched patch.mac patch.key content patch.desired).withPass
      (some { next with written := next.written + 1, stage := .walking }) := by
  have hfirst : (s.step (.writer .turn)).1 = s.withPass (some next) := by
    rw [← hturn]
    exact s.step_writer (Process.write_turn h hstage)
  let stored := s.change (.edit patch.key { content with status := some patch.desired })
  have hanswer : ((s.withPass (some next)).step (.writer (.answer true))).1 =
      stored.withPass (some { next with stage := .noting patch }) :=
    (s.withPass (some next)).step_writer (Process.write_answer rfl hsending hlive)
  have hnote : ((stored.withPass (some { next with stage := .noting patch })).step
      (.writer .note)).1 = (s.patched patch.mac patch.key content patch.desired).withPass
        (some { next with written := next.written + 1, stage := .walking }) := rfl
  rw [after_round, hfirst, hanswer, hnote]

end Round

end Writing

/-! ## Passes over a faithful index -/

/-- Every entry with a live object is that object as it is, under its MAC. -/
def Faithful (index : BootHostIndex) (live : LiveObjects) : Prop :=
  ∀ mac object key content, index.lookup mac = some object → object.key = some key →
    live.lookup key = some content →
      object = content.object key ∧ (content.object key).usableMac = some mac

/-- Two entries do not have the same live object. -/
theorem Faithful.mac_eq {index : BootHostIndex} {live : LiveObjects} (h : Faithful index live)
    {mac mac' : Mac} {object object' : BootHost} {key : ObjectKey} {content : Content}
    (hobject : index.lookup mac = some object) (hkey : object.key = some key)
    (hobject' : index.lookup mac' = some object') (hkey' : object'.key = some key)
    (hlive : live.lookup key = some content) : mac = mac' := by
  have hmac := (h mac object key content hobject hkey hlive).2
  have hmac' := (h mac' object' key content hobject' hkey' hlive).2
  rw [hmac, Option.some.injEq] at hmac'
  exact hmac'

namespace Writing

open Classical in
/-- The MACs whose live object is still to be patched. -/
noncomputable def waiting (s : Writing) : Finset Mac :=
  s.index.keys.filter fun mac => ∃ object key content, s.index.lookup mac = some object ∧
    object.key = some key ∧ s.live.lookup key = some content ∧ ¬s.process.seen.Settled mac object

/-- A MAC is waiting exactly when its object is live and not settled. -/
theorem mem_waiting_iff (s : Writing) (mac : Mac) :
    mac ∈ s.waiting ↔ ∃ object key content, s.index.lookup mac = some object ∧
      object.key = some key ∧ s.live.lookup key = some content ∧
        ¬s.process.seen.Settled mac object := by
  classical
  unfold waiting
  rw [Finset.mem_filter, Finmap.mem_keys, and_iff_right_iff_imp]
  rintro ⟨object, key, content, hobject, -⟩
  exact Finmap.mem_of_lookup_eq_some hobject

/-- An entry waits when its object is live and not settled. -/
theorem mem_waiting_iff_of_lookup {s : Writing} {mac : Mac} {object : BootHost}
    (hobject : s.index.lookup mac = some object) :
    mac ∈ s.waiting ↔ ∃ key content, object.key = some key ∧ s.live.lookup key = some content ∧
      ¬s.process.seen.Settled mac object := by
  rw [mem_waiting_iff]
  constructor
  · rintro ⟨object', key, content, hobject', hwaits⟩
    rw [hobject, Option.some.injEq] at hobject'
    exact ⟨key, content, hobject' ▸ hwaits⟩
  · rintro ⟨key, content, hwaits⟩
    exact ⟨object, key, content, hobject, hwaits⟩

/-- A pass is on its way through a faithful index: what is still to be patched is before it. -/
structure Walking (limit : ℕ) (s : Writing) (pass : StatusPass) : Prop where
  passing : s.process.pass = some pass
  walking : pass.stage = .walking
  faithful : Faithful s.index s.live
  nodup : (pass.todo.map Prod.fst).Nodup
  current : ∀ e ∈ pass.todo, s.index.lookup e.1 = some e.2
  covers : ∀ mac ∈ s.waiting, mac ∈ pass.todo.map Prod.fst
  count : s.waiting.card + pass.written ≤ limit

/-- A pass is over, and has patched everything or as much as it may. -/
structure Ended (limit : ℕ) (s : Writing) : Prop where
  idle : s.process.pass = none
  faithful : Faithful s.index s.live
  count : s.waiting = ∅ ∨ s.waiting.card + maxPatchesPerPass ≤ limit

section Patched

variable {s : Writing} {mac : Mac} {key : ObjectKey} {content : Content}

/-- Under its MAC stands the patched object, as it is live. -/
theorem lookup_patched_self (hobject : s.index.lookup mac = some (content.object key))
    (desired : BootHostStatus) :
    (s.patched mac key content desired).index.lookup mac =
      some ({ content with status := some desired : Content }.object key) := by
  refine (Watch.lookup_note s.process.watch mac).trans ?_
  rw [if_pos rfl, hobject]
  rfl

/-- Nothing else in the index changes. -/
theorem lookup_patched_of_ne (key : ObjectKey) (content : Content) {mac' : Mac} (hmac : mac' ≠ mac)
    (desired : BootHostStatus) :
    (s.patched mac key content desired).index.lookup mac' = s.index.lookup mac' :=
  (Watch.lookup_note s.process.watch mac').trans (if_neg hmac)

/-- Another entry has another object, which is live as it was. -/
theorem live_patched_of_ne (h : Faithful s.index s.live)
    (hobject : s.index.lookup mac = some (content.object key))
    (hlive : s.live.lookup key = some content) (desired : BootHostStatus) {mac' : Mac}
    (hmac : mac' ≠ mac) {object' : BootHost} {key' : ObjectKey}
    (hobject' : s.index.lookup mac' = some object') (hkey' : object'.key = some key') :
    (s.patched mac key content desired).live.lookup key' = s.live.lookup key' := by
  have hother : key' ≠ key := by
    rintro rfl
    exact hmac (h.mac_eq hobject' hkey' hobject rfl hlive)
  exact Finmap.lookup_insert_of_ne _ hother

/-- A patch of the live object under the MAC keeps the index faithful. -/
theorem faithful_patched (h : Faithful s.index s.live)
    (hobject : s.index.lookup mac = some (content.object key))
    (hlive : s.live.lookup key = some content) (desired : BootHostStatus) :
    Faithful (s.patched mac key content desired).index
      (s.patched mac key content desired).live := by
  have husable : (content.object key).usableMac = some mac :=
    (h mac _ key content hobject rfl hlive).2
  intro mac' object' key' content' hobject' hkey' hlive'
  by_cases hmac : mac' = mac
  · subst hmac
    rw [lookup_patched_self hobject, Option.some.injEq] at hobject'
    subst hobject'
    rw [BootHost.key_object, Option.some.injEq] at hkey'
    subst hkey'
    have hstored : (s.patched mac' key content desired).live.lookup key =
        some { content with status := some desired } := Finmap.lookup_insert _
    rw [hstored, Option.some.injEq] at hlive'
    subst hlive'
    exact ⟨rfl, husable⟩
  · rw [lookup_patched_of_ne key content hmac] at hobject'
    rw [live_patched_of_ne h hobject hlive desired hmac hobject' hkey'] at hlive'
    exact h mac' object' key' content' hobject' hkey' hlive'

/-- With the status it should have, it is the one that no longer waits. -/
theorem waiting_patched (h : Faithful s.index s.live)
    (hobject : s.index.lookup mac = some (content.object key))
    (hlive : s.live.lookup key = some content) {desired : BootHostStatus}
    (hsettled : s.process.seen.Settled mac
      ({ content with status := some desired : Content }.object key)) :
    (s.patched mac key content desired).waiting = s.waiting.erase mac := by
  ext mac'
  rw [Finset.mem_erase, mem_waiting_iff, mem_waiting_iff]
  by_cases hmac : mac' = mac
  · subst hmac
    rw [lookup_patched_self hobject]
    constructor
    · rintro ⟨object', key', content', hobject', -, -, hwaits⟩
      rw [Option.some.injEq] at hobject'
      exact absurd (hobject' ▸ hsettled) hwaits
    · exact fun hne => absurd rfl hne.1
  · rw [lookup_patched_of_ne key content hmac]
    refine Iff.trans ?_ (and_iff_right hmac).symm
    refine exists_congr fun object' => exists_congr fun key' => exists_congr fun content' => ?_
    refine and_congr_right fun hobject' => and_congr_right fun hkey' => ?_
    rw [live_patched_of_ne h hobject hlive desired hmac hobject' hkey']
    rfl

end Patched

section Walking

variable {limit : ℕ} {s : Writing} {pass next : StatusPass} {mac : Mac} {object : BootHost}
  {rest : List (Mac × BootHost)}

/-- A MAC that waits and is not the next is in the rest. -/
theorem Walking.mem_rest (h : Walking limit s pass) (htodo : pass.todo = (mac, object) :: rest)
    {mac' : Mac} (hwaits : mac' ∈ s.waiting) (hne : mac' ≠ mac) : mac' ∈ rest.map Prod.fst := by
  have hmem := h.covers mac' hwaits
  rw [htodo, List.map_cons, List.mem_cons] at hmem
  exact hmem.resolve_left hne

/-- An object that does not wait is passed over. -/
theorem Walking.drop (h : Walking limit s pass) (htodo : pass.todo = (mac, object) :: rest)
    (hmac : mac ∉ s.waiting) (hrest : next.todo = rest) (hwritten : next.written = pass.written)
    (hstage : next.stage = .walking) : Walking limit (s.withPass (some next)) next where
  passing := rfl
  walking := hstage
  faithful := h.faithful
  nodup := by
    have hnodup := h.nodup
    rw [htodo, List.map_cons, List.nodup_cons] at hnodup
    rw [hrest]
    exact hnodup.2
  current := by
    intro e he
    rw [hrest] at he
    exact h.current e (htodo ▸ List.mem_cons_of_mem _ he)
  covers := by
    intro mac' hwaits
    rw [hrest]
    exact h.mem_rest htodo hwaits (fun heq => hmac (heq ▸ hwaits))
  count := by
    rw [hwritten]
    exact h.count

/-- An object that waits is patched. -/
theorem Walking.patch (h : Walking limit s pass) {key : ObjectKey} {content : Content}
    (htodo : pass.todo = (mac, content.object key) :: rest)
    (hlive : s.live.lookup key = some content) (hmac : mac ∈ s.waiting) (hrest : next.todo = rest)
    (hwritten : next.written = pass.written + 1) (hstage : next.stage = .walking) :
    Walking limit ((s.patched mac key content
      (s.process.seen.desired mac pass.now (content.object key))).withPass (some next)) next := by
  have hobject : s.index.lookup mac = some (content.object key) :=
    h.current (mac, content.object key) (htodo ▸ List.mem_cons_self)
  have hwaiting := waiting_patched h.faithful hobject hlive
    (s.process.seen.settled_patched mac pass.now (content.object key))
  have hnodup := h.nodup
  rw [htodo, List.map_cons, List.nodup_cons] at hnodup
  refine ⟨rfl, hstage, faithful_patched h.faithful hobject hlive _, hrest ▸ hnodup.2, ?_, ?_, ?_⟩
  · intro e he
    rw [hrest] at he
    have hne : e.1 ≠ mac := fun heq => hnodup.1 (heq ▸ List.mem_map.mpr ⟨e, he, rfl⟩)
    exact (lookup_patched_of_ne key content hne _).trans
      (h.current e (htodo ▸ List.mem_cons_of_mem _ he))
  · intro mac' hwaits
    have hmem : mac' ∈ s.waiting.erase mac := hwaiting ▸ hwaits
    rw [Finset.mem_erase] at hmem
    rw [hrest]
    exact h.mem_rest htodo hmem.2 hmem.1
  · have hone := Finset.card_erase_add_one hmac
    have hcard : ((s.patched mac key content
        (s.process.seen.desired mac pass.now (content.object key))).withPass
          (some next)).waiting.card = (s.waiting.erase mac).card := congrArg Finset.card hwaiting
    have hcount := h.count
    omega

/-- The pass is over at the end of the snapshot, or when it has patched as much as it may. -/
theorem Walking.over (h : Walking limit s pass)
    (hover : pass.todo = [] ∨ pass.written ≥ maxPatchesPerPass) :
    Ended limit (s.after round) := by
  have hturn : pass.turn s.process.seen = none :=
    hover.elim StatusPass.turn_nil StatusPass.turn_full
  rw [round_walking h.passing h.walking hturn nofun]
  refine ⟨rfl, h.faithful, ?_⟩
  rcases hover with hnil | hfull
  · refine .inl (Finset.eq_empty_of_forall_notMem fun mac hwaits => ?_)
    have hmem := h.covers mac hwaits
    rw [hnil] at hmem
    cases hmem
  · exact .inr (Nat.le_trans (Nat.add_le_add_left hfull _) h.count)

/-- Before that, a round brings the pass on by one object. -/
theorem Walking.advance (h : Walking limit s pass) (htodo : pass.todo = (mac, object) :: rest)
    (hroom : pass.written < maxPatchesPerPass) :
    ∃ next, next.todo = rest ∧ Walking limit (s.after round) next := by
  have hobject : s.index.lookup mac = some object :=
    h.current (mac, object) (htodo ▸ List.mem_cons_self)
  have hwaiting := mem_waiting_iff_of_lookup hobject
  by_cases hsettled : ∀ key, object.key = some key →
      object.status = some (s.process.seen.desired mac pass.now object)
  · have hmac : mac ∉ s.waiting := by
      rw [hwaiting]
      rintro ⟨key, content, hkey, -, hwaits⟩
      exact hwaits (Observed.settled_of_eq (hsettled key hkey))
    rw [round_walking h.passing h.walking (StatusPass.turn_settled htodo hroom hsettled)
      (fun next hnext => Option.some.inj hnext ▸ h.walking)]
    exact ⟨_, rfl, h.drop htodo hmac rfl rfl h.walking⟩
  · push Not at hsettled
    obtain ⟨key, hkey, hstale⟩ := hsettled
    have hturn := StatusPass.turn_stale htodo hroom hkey hstale
    cases hlive : s.live.lookup key with
    | none =>
      have hmac : mac ∉ s.waiting := by
        rw [hwaiting]
        rintro ⟨key', content, hkey', hlive', -⟩
        rw [hkey, Option.some.injEq] at hkey'
        rw [← hkey', hlive] at hlive'
        cases hlive'
      rw [round_refused h.passing h.walking hturn rfl hlive]
      exact ⟨_, rfl, h.drop htodo hmac rfl rfl rfl⟩
    | some content =>
      have hwaits : mac ∈ s.waiting :=
        hwaiting.mpr ⟨key, content, hkey, hlive, fun hsettled => hstale (hsettled pass.now)⟩
      obtain ⟨rfl, -⟩ := h.faithful mac object key content hobject hkey hlive
      rw [round_patched h.passing h.walking hturn rfl hlive]
      exact ⟨_, rfl, h.patch htodo hlive hwaits rfl rfl rfl⟩

/-- When the pass is over, further rounds do nothing. -/
theorem rounds_idle (n : ℕ) (h : s.process.pass = none) : rounds n s = s := by
  induction n with
  | zero => rfl
  | succ n ih => rw [rounds, round_idle h, ih]

/-- With a round for each object to go and one more, the pass ends. -/
theorem Walking.rounds (h : Walking limit s pass) {n : ℕ} (hn : pass.todo.length < n) :
    Ended limit (rounds n s) := by
  induction n generalizing s pass with
  | zero => exact absurd hn (Nat.not_lt_zero _)
  | succ n ih =>
    rw [Writing.rounds]
    by_cases hover : pass.todo = [] ∨ pass.written ≥ maxPatchesPerPass
    · have hended := h.over hover
      rw [rounds_idle n hended.idle]
      exact hended
    · push Not at hover
      obtain ⟨⟨mac, object⟩, rest, htodo⟩ := List.exists_cons_of_ne_nil hover.1
      obtain ⟨next, hrest, hnext⟩ := h.advance htodo hover.2
      rw [htodo, List.length_cons, Nat.succ_lt_succ_iff, ← hrest] at hn
      exact ih hnext hn

end Walking

/-! ## From one pass to the next -/

section Passes

variable {s : Writing}

/-- A pass begins over a snapshot of the index. -/
theorem after_begin (hidle : s.process.pass = none) (now : Text)
    (order : HashMap.Iteration Mac BootHost) :
    s.after [.writer (.begin now order)] =
      s.withPass (some ⟨now, BootHostIndex.snapshot order s.index, 0, .walking⟩) :=
  s.step_writer (Process.write_begin hidle now order)

/-- A pass that begins finds all that waits in its snapshot. -/
theorem walking_begin (hidle : s.process.pass = none) (hfaithful : Faithful s.index s.live)
    (now : Text) (order : HashMap.Iteration Mac BootHost) :
    s.after [.writer (.begin now order)] =
        s.withPass (some ⟨now, BootHostIndex.snapshot order s.index, 0, .walking⟩) ∧
      Walking s.waiting.card (s.after [.writer (.begin now order)])
        ⟨now, BootHostIndex.snapshot order s.index, 0, .walking⟩ := by
  have hbegun := after_begin hidle now order
  have hmacs : (BootHostIndex.snapshot order s.index).map Prod.fst =
      (order.list s.index).map Sigma.fst := List.map_map ..
  refine ⟨hbegun, ?_⟩
  rw [hbegun]
  refine ⟨rfl, rfl, hfaithful, hmacs ▸ order.nodup_keys s.index, ?_, ?_, le_rfl⟩
  · rintro ⟨mac, object⟩ he
    obtain ⟨⟨mac', object'⟩, hmem, heq⟩ := List.mem_map.mp he
    cases heq
    exact (order.mem_list_iff s.index mac' object').mp hmem
  · intro mac hwaits
    obtain ⟨object, key, content, hobject, -⟩ := (mem_waiting_iff s mac).mp hwaits
    have hmem := (order.mem_list_iff s.index mac object).mpr hobject
    rw [hmacs]
    exact List.mem_map.mpr ⟨_, hmem, rfl⟩

/-- A pass patches all that waits, or as much as it may. -/
theorem ended_quietPass (hidle : s.process.pass = none) (hfaithful : Faithful s.index s.live)
    (now : Text) (order : HashMap.Iteration Mac BootHost) :
    Ended s.waiting.card (s.quietPass now order) :=
  (walking_begin hidle hfaithful now order).2.rounds (Nat.lt_succ_self _)

/-- After enough passes nothing waits. -/
theorem waiting_quietPasses (hidle : s.process.pass = none)
    (hfaithful : Faithful s.index s.live)
    (passes : List (Text × HashMap.Iteration Mac BootHost))
    (henough : s.waiting.card ≤ maxPatchesPerPass * passes.length) :
    (s.quietPasses passes).process.pass = none ∧
      Faithful (s.quietPasses passes).index (s.quietPasses passes).live ∧
        (s.quietPasses passes).waiting = ∅ := by
  induction passes generalizing s with
  | nil => exact ⟨hidle, hfaithful, Finset.card_eq_zero.mp (Nat.le_zero.mp henough)⟩
  | cons pass rest ih =>
    have hended := ended_quietPass hidle hfaithful pass.1 pass.2
    rw [List.length_cons, Nat.mul_succ] at henough
    have hrest : (s.quietPass pass.1 pass.2).waiting.card ≤ maxPatchesPerPass * rest.length := by
      rcases hended.count with hnone | hcapped
      · rw [hnone, Finset.card_empty]
        exact Nat.zero_le _
      · omega
    exact ih hended.idle hended.faithful hrest

/-- No more wait than the index holds. -/
theorem card_waiting_le (s : Writing) : s.waiting.card ≤ HashMap.len s.index := by
  classical
  have hle : s.waiting.card ≤ s.index.keys.card := Finset.card_filter_le ..
  have hkeys : s.index.keys.card = HashMap.len s.index := by
    obtain ⟨entries, hnodup⟩ := s.index
    exact Multiset.card_map ..
  exact hkeys ▸ hle

/-- A pass over an index where every object is settled changes nothing. -/
theorem quietPass_settled (hidle : s.process.pass = none)
    (hsettled : ∀ mac object, s.index.lookup mac = some object →
      s.process.seen.Settled mac object) (now : Text) (order : HashMap.Iteration Mac BootHost) :
    s.quietPass now order = s := by
  have hnone : s.withPass none = s := by
    rw [← hidle]
    rfl
  have hroom : 0 < maxPatchesPerPass := by decide
  have hrounds : ∀ todo : List (Mac × BootHost),
      (∀ e ∈ todo, s.process.seen.Settled e.1 e.2) →
        rounds (todo.length + 1) (s.withPass (some ⟨now, todo, 0, .walking⟩)) = s := by
    intro todo
    induction todo with
    | nil =>
      intro _
      have hround := round_walking (s := s.withPass (some ⟨now, [], 0, .walking⟩)) rfl rfl
        (StatusPass.turn_nil rfl) nofun
      exact hround.trans hnone
    | cons entry rest ih =>
      intro hall
      have hround := round_walking (s := s.withPass (some ⟨now, entry :: rest, 0, .walking⟩)) rfl rfl
        (StatusPass.turn_settled rfl hroom fun key _ => hall entry List.mem_cons_self now)
        (fun next hnext => Option.some.inj hnext ▸ rfl)
      rw [List.length_cons, rounds, hround]
      exact ih fun e he => hall e (List.mem_cons_of_mem _ he)
  rw [quietPass, after_begin hidle]
  refine hrounds _ fun e he => ?_
  obtain ⟨⟨mac, object⟩, hmem, rfl⟩ := List.mem_map.mp he
  exact hsettled mac object ((order.mem_list_iff s.index mac object).mp hmem)

/-- When every object is settled the passes change nothing. -/
theorem quietPasses_settled (hidle : s.process.pass = none)
    (hsettled : ∀ mac object, s.index.lookup mac = some object →
      s.process.seen.Settled mac object)
    (passes : List (Text × HashMap.Iteration Mac BootHost)) : s.quietPasses passes = s := by
  induction passes with
  | nil => rfl
  | cons pass rest ih =>
    rw [quietPasses, List.foldl_cons, quietPass_settled hidle hsettled]
    exact ih

end Passes

end Writing

end Stormnetboot.Server
