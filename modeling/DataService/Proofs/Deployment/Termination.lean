import DataService.Proofs.Deployment.SpentPolls
import DataService.Proofs.Deployment.StoppedTarget

/-!
# Replays and readers come to their ends

What replays and readers do as often as it takes comes to an end if the target and the source are
found running only so often, whatever else happens meanwhile (`replays_and_readers_end`). Three facts
are put together here:

* **answers**: every offer and every wait has an answer of its own right in front of it
  (`Replay.answered_trace`, `Audience.answered_trace`), so the answers bound the offers and the waits;
* **loops**: the loops are left once there were turns enough for the answers (`Replay.push_ends`,
  `Replay.wait_ends`, `Replay.whole_ends`, `Audience.wait_ends`);
* **polls**: in a deployment there are only so many answers, as each of them uses up a poll of the
  run that gives it (`Replay.finds_le_polls`, `Audience.finds_le_polls`).
-/

set_option autoImplicit false

namespace DataService

/-- **Replays and readers come to their ends.** In the course of a replay every offer has right
before it an answer of its own that the target is running, and every wait one that the run of the
population is; so there are no more offers and waits than answers. The replay is over once it has
had seven turns, three for each answer of the target and one for each of the source. On its way it
is done with a row, or has found the target stopped, once it has had more than two turns for each
answer of the target; and it has found the next row, or that there is none, once it has had more
turns than the source has answered. The same is true of the call of any reader. And answers come to
an end: whatever has happened to a deployment before, a run is found running no more often than it
has polls, and the answers of the target are all of one run. -/
theorem replays_and_readers_end {σ : Type} [ResultStore σ] :
    (∀ (r : Replay) (d : Deployment σ) (turns later : List (Turn σ)),
      let c := r.follow { deployment := d } turns
      let efforts := r.worker.trace { deployment := d } turns
      let further := r.worker.trace c later
      Answered efforts ∧
      efforts.countP (·.isOffer) ≤ efforts.countP (·.findsTarget) ∧
      efforts.countP (·.isWait) ≤ efforts.countP (·.findsSource) ∧
      efforts.countP (·.isOffer) = (r.transcript { deployment := d } turns).countP (·.isOffer) ∧
      efforts.countP (·.findsTarget) = c.answers.count true ∧
      (7 + 3 * efforts.countP (·.findsTarget) + efforts.countP (·.findsSource) ≤
          turns.countP (·.isOwn) →
        ∃ answer, c.stage = .done answer) ∧
      (∀ n row, c.stage = .asking n row →
        2 * further.countP (·.findsTarget) < later.countP (·.isOwn) →
        ∃ front, front <+: later ∧ ((r.follow c front).stage = .reading (n + 1) ∨
          (r.follow c front).stage = .closing n true)) ∧
      ∀ n, c.stage = .reading n → further.countP (·.findsSource) < later.countP (·.isOwn) →
        ∃ front, front <+: later ∧ ((∃ row, (r.follow c front).stage = .asking n row) ∨
          (r.follow c front).stage = .closing n false)) ∧
    (∀ (a : Audience σ) (number : Nat) (g : Reading) (turns : List (Audience.Turn σ)),
      a.readings[number]? = some g → g.sighted = false →
      let efforts := (Audience.worker number).trace a turns
      Answered efforts ∧
      efforts.countP (·.isWait) ≤ efforts.countP (·.findsSource) ∧
      (efforts.countP (·.findsSource) < turns.countP (·.isOf number) →
        ∃ front, front ++ [.reads number] <+: turns ∧
          ∃ g', (a.after (front ++ [.reads number])).readings[number]? = some g' ∧
            (g'.sighted = true ∨ g'.ended = true))) ∧
    (∀ (before : List (Operation σ)) (r : Replay) (turns : List (Turn σ)),
      let d := ({} : Deployment σ).after before
      let efforts := r.worker.trace { deployment := d } turns
      efforts.countP (·.findsTarget) ≤ efforts.countP (·.finds r.target) ∧
      ∀ run there, d.run? run = some there → efforts.countP (·.finds run) ≤ there.polls) ∧
    ∀ (before turns : List (Audience.Turn σ)) (number : Nat),
      let a := ({} : Audience σ).after before
      let efforts := (Audience.worker number).trace a turns
      ∀ run there, a.deployment.run? run = some there →
        efforts.countP (·.finds run) ≤ there.polls := by
  refine ⟨?_, ?_, ?_, ?_⟩
  · intro r d turns later c efforts further
    have answered : Answered efforts := r.answered_trace d turns
    obtain ⟨offers_eq, answers_eq⟩ := r.trace_seen { deployment := d } turns
    rw [List.count_nil, Nat.zero_add] at answers_eq
    exact ⟨answered, answered.offers_le, answered.waits_le, offers_eq, answers_eq,
      r.whole_ends (c := { deployment := d }),
      fun n row asking => r.push_ends asking, fun n reading => r.wait_ends reading⟩
  · intro a number g turns found unsighted efforts
    have answered : Answered efforts := a.answered_trace number turns
    exact ⟨answered, answered.waits_le, Audience.wait_ends found unsighted⟩
  · intro before r turns d efforts
    exact ⟨r.findsTarget_le { deployment := d } turns,
      fun run there here => r.finds_le_polls before turns here⟩
  · intro before turns number a efforts run there here
    exact Audience.finds_le_polls before turns number here

/-- A population captures a row of a run that can be found running once more. Another run waits for
rows and refuses the first offer. -/
def captureForRefusing : List (Operation KeyedMap) :=
  [.addRun "source" [("out", ["n"])] [] 1 [],
    .addRun "target" [] ["in"] 3 [{ accepted := false }],
    .addPopulation "population" { pipelineVersion := 7 } { fingerprint := some 7 } "out",
    .install ⟨2⟩ ⟨"source", 0⟩,
    .engine (.start "source"),
    .engine (.emit "source" "out" [.integer 1])]

/-- What is there when the row has been captured. -/
def capturedForRefusing : Deployment KeyedMap := ({} : Deployment KeyedMap).after captureForRefusing

/-- The replay of this row when it is about to ask for it. -/
def askingForRefused : Course KeyedMap :=
  Replay.replayOfCaptured.follow { deployment := capturedForRefusing } (List.replicate 3 .own)

/-- The replay of this row when it is about to look for another one. -/
def readingBehindRow : Course KeyedMap :=
  Replay.replayOfCaptured.follow { deployment := capturedForRefusing } (List.replicate 7 .own)

/-- A reader that has passed this row. -/
def readerBehindRow : Audience KeyedMap where
  deployment := capturedForRefusing
  readings := [{ reader := ⟨⟨2⟩, 1⟩ }]

/-- The course of the capture, with a reader that is opened at its end. -/
def readingForRefusing : List (Audience.Turn KeyedMap) :=
  captureForRefusing.map .other ++ [.opens ⟨2⟩]

/-- The replay offers the row twice, waits once for another one, and is over; so is the call of the
reader after it has waited. It has found the target running as often as that has polls at most, and
the reader has so found the source. -/
theorem replays_and_readers_end_refused :
    (∃ answer, (Replay.replayOfCaptured.follow { deployment := capturedForRefusing }
      (List.replicate 14 .own)).stage = .done answer) ∧
    (∃ front, front <+: List.replicate 5 .own ∧
      ((Replay.replayOfCaptured.follow askingForRefused front).stage = .reading 1 ∨
        (Replay.replayOfCaptured.follow askingForRefused front).stage = .closing 0 true)) ∧
    (∃ front, front <+: List.replicate 2 .own ∧
      ((∃ row, (Replay.replayOfCaptured.follow readingBehindRow front).stage = .asking 1 row) ∨
        (Replay.replayOfCaptured.follow readingBehindRow front).stage = .closing 1 false)) ∧
    (∃ front, front ++ [.reads 0] <+: List.replicate 2 (.reads 0) ∧
      ∃ g, (readerBehindRow.after (front ++ [.reads 0])).readings[0]? = some g ∧
        (g.sighted = true ∨ g.ended = true)) ∧
    (Replay.replayOfCaptured.worker.trace { deployment := capturedForRefusing }
      (List.replicate 14 .own)).countP (·.finds ⟨"target", 1⟩) ≤ 3 ∧
    ((Audience.worker 0).trace (({} : Audience KeyedMap).after readingForRefusing)
      (List.replicate 5 (.reads 0))).countP (·.finds ⟨"source", 0⟩) ≤ 1 := by
  let r := Replay.replayOfCaptured
  have enough : 7 +
      3 * (r.worker.trace { deployment := capturedForRefusing } (List.replicate 14 .own)).countP
        (·.findsTarget) +
      (r.worker.trace { deployment := capturedForRefusing } (List.replicate 14 .own)).countP
        (·.findsSource) ≤ (List.replicate 14 (.own : Turn KeyedMap)).countP (·.isOwn) := by decide
  have enough_to_push :
      2 * (r.worker.trace askingForRefused (List.replicate 5 .own)).countP (·.findsTarget) <
        (List.replicate 5 (.own : Turn KeyedMap)).countP (·.isOwn) := by decide
  have enough_to_wait :
      (r.worker.trace readingBehindRow (List.replicate 2 .own)).countP (·.findsSource) <
        (List.replicate 2 (.own : Turn KeyedMap)).countP (·.isOwn) := by decide
  have enough_to_read :
      ((Audience.worker 0).trace readerBehindRow (List.replicate 2 (.reads 0))).countP
        (·.findsSource) <
        (List.replicate 2 (.reads 0 : Audience.Turn KeyedMap)).countP (·.isOf 0) := by decide
  obtain ⟨row, asking⟩ : ∃ row, askingForRefused.stage = .asking 0 row := ⟨_, rfl⟩
  have reading : readingBehindRow.stage = .reading 1 := rfl
  obtain ⟨target, target_here, target_polls⟩ :
      ∃ target, capturedForRefusing.run? ⟨"target", 1⟩ = some target ∧ target.polls = 3 :=
    ⟨_, rfl, rfl⟩
  obtain ⟨source, source_here, source_polls⟩ :
      ∃ source, (({} : Audience KeyedMap).after readingForRefusing).deployment.run?
        ⟨"source", 0⟩ = some source ∧ source.polls = 1 := ⟨_, rfl, rfl⟩
  obtain ⟨of_replays, of_readers, polls_of_replays, polls_of_readers⟩ :=
    replays_and_readers_end (σ := KeyedMap)
  obtain ⟨-, -, -, -, -, ends, -, -⟩ := of_replays r capturedForRefusing (List.replicate 14 .own) []
  obtain ⟨-, -, -, -, -, -, push_ends, -⟩ :=
    of_replays r capturedForRefusing (List.replicate 3 .own) (List.replicate 5 .own)
  obtain ⟨-, -, -, -, -, -, -, wait_ends⟩ :=
    of_replays r capturedForRefusing (List.replicate 7 .own) (List.replicate 2 .own)
  obtain ⟨-, -, call_ends⟩ := of_readers readerBehindRow 0 _ (List.replicate 2 (.reads 0)) rfl rfl
  obtain ⟨-, polls_of_replay⟩ := polls_of_replays captureForRefusing r (List.replicate 14 .own)
  have found_target := polls_of_replay ⟨"target", 1⟩ target target_here
  have found_source := polls_of_readers readingForRefusing (List.replicate 5 (.reads 0)) 0
    ⟨"source", 0⟩ source source_here
  rw [target_polls] at found_target
  rw [source_polls] at found_source
  exact ⟨ends enough, push_ends 0 row asking enough_to_push, wait_ends 1 reading enough_to_wait,
    call_ends enough_to_read, found_target, found_source⟩

end DataService
