import Notifications.Proofs.Schedules
import Notifications.Proofs.Serving
/-!
How many batches may wait. Settings are refused for a queue without room, and accepted for one that
is too large to be made: such a run breaks off.
-/
namespace Notifications.Daemon

variable {m : Machine} {args : List String}

theorem post_ending_eq_broken_iff (turns : List Turn) (m : Machine) (c : CommandLine) (s : Settings)
    (files : Files) : (post turns m c s files).ending = .broken ↔
      Channel.maxCapacity < s.output.queueDepth.toNat := by
  rw [← Channel.capacityFor?_eq_none_iff, post]
  cases hcapacity : Channel.capacityFor? s.output.queueDepth.toNat with
  | none => simp [endsWith]
  | some capacity =>
    cases hopen : openInput m files c.input with
    | error e => simp [endsWith]
    | ok feed =>
      cases hresult : (sessionFor turns capacity s m.hasReader feed).result <;> simp [hresult]

/-- As long as its output is read, a run breaks off exactly when settings are accepted by which more
batches may wait than any queue has room for. -/
theorem ending_eq_broken_iff (hreader : m.hasReader = true) (turns : List Turn) :
    (runWith turns m args).ending = .broken ↔
      ∃ c s files, Serves m args c s files ∧ 2305843009213693951 < s.output.queueDepth.toNat := by
  constructor
  · intro hbroken
    by_cases h : ∃ c s files, Serves m args c s files
    · obtain ⟨c, s, files, hserves⟩ := h
      obtain ⟨log, heq⟩ := hserves.runWith_eq turns
      rw [heq] at hbroken
      exact ⟨c, s, files, hserves, (post_ending_eq_broken_iff turns m c s files).1 hbroken⟩
    · exact absurd hbroken (ending_ne_broken hreader h turns)
  · rintro ⟨c, s, files, hserves, hdepth⟩
    obtain ⟨log, heq⟩ := hserves.runWith_eq turns
    rw [heq]
    exact (post_ending_eq_broken_iff turns m c s files).2 hdepth

/-- The largest queue there is can be asked for. -/
theorem ending_of_largestQueue :
    let m := machineWith "[output]\nqueue_depth = 2305843009213693951\n" []
    m.hasReader = true ∧ (runWith [] m ["-c", "daemon.toml"]).ending ≠ .broken := by
  intro m
  have hreader : m.hasReader = true := rfl
  have hload : loadText "[output]\nqueue_depth = 2305843009213693951\n" =
      .ok (withQueue 2305843009213693951) := by
    rfl
  obtain ⟨files, hserves⟩ := serves_machineWith hload []
  refine ⟨hreader, fun hbroken => ?_⟩
  obtain ⟨c, s, files', hserves', hdepth⟩ := (ending_eq_broken_iff hreader []).1 hbroken
  obtain ⟨-, rfl⟩ := hserves.unique hserves'
  exact absurd hdepth (by decide)

/-- One more, and the settings are accepted all the same. -/
theorem broken_of_hugeQueue :
    let m := machineWith "[output]\nqueue_depth = 2305843009213693952\n" []
    m.hasReader = true ∧ (∃ c s files, Serves m ["-c", "daemon.toml"] c s files) ∧
      (run m ["-c", "daemon.toml"]).ending = .broken := by
  intro m
  have hload : loadText "[output]\nqueue_depth = 2305843009213693952\n" =
      .ok (withQueue 2305843009213693952) := by
    rfl
  obtain ⟨files, hserves⟩ := serves_machineWith hload []
  obtain ⟨log, heq⟩ := hserves.runWith_eq []
  refine ⟨rfl, ⟨_, _, files, hserves⟩, ?_⟩
  rw [run, heq]
  exact (post_ending_eq_broken_iff [] m _ _ files).2 (by decide)

end Notifications.Daemon
