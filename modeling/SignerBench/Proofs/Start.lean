import SignerBench.Emulator.Start
import SignerBench.Proofs.Session

namespace SignerBench.Emulator.Session

open Dialogue

variable {s : Session}

/-- An emulator as it is handed to those who use it. -/
def Ready (s : Session) : Prop :=
  (∃ address o log, (attach address o).Gives log s) ∨ ∃ env elf o log, (start env elf o).Gives log s

theorem waitReady_gives {s' : Session} {log : WorkLog} (h : s.waitReady.Gives log s') :
    ∃ home, s'.mainMenu = some home := by
  have hbehind (home : Snapshot) :
      Attempt.Closed (return { s with mainMenu := some home } : Work Session) := trivial
  obtain ⟨now, _, _, _, _, h⟩ := Attempt.gives_bind (.inl Attempt.flat_query) h
  obtain ⟨_, _, _, _, _, h⟩ := Attempt.gives_bind (.inr fun _ =>
    closed_poll.bind fun _ => closed_snapshot.bind hbehind) h
  obtain ⟨_, _, _, _, _, h⟩ := Attempt.gives_bind (.inr fun _ => closed_snapshot.bind hbehind) h
  obtain ⟨home, _, rfl⟩ := Attempt.gives_bind_pure h
  exact ⟨home, rfl⟩

theorem closed_waitReady : s.waitReady.Closed :=
  Attempt.closed_query.bind fun _ => closed_poll.bind fun _ => closed_poll.bind fun _ =>
    closed_snapshot.bind fun _ => trivial

/-- However it was started, an emulator that is handed out knows its home screen. -/
theorem Ready.mainMenu (h : s.Ready) : ∃ home, s.mainMenu = some home := by
  rcases h with ⟨address, o, log, h⟩ | ⟨env, elf, o, log, h⟩
  · exact waitReady_gives h
  · obtain ⟨isFile, _, _, _, _, h⟩ := Attempt.gives_bind (.inl Attempt.flat_query) h
    dsimp only at h
    split at h
    · obtain ⟨apiPort, _, _, _, _, h⟩ := Attempt.gives_bind (.inl Attempt.flat_demand) h
      obtain ⟨apduPort, _, _, _, _, h⟩ := Attempt.gives_bind (.inl Attempt.flat_demand) h
      obtain ⟨_, _, _, _, _, h⟩ := Attempt.gives_bind (.inl Attempt.flat_demand) h
      exact waitReady_gives h
    · obtain ⟨_, _, _, _, h, _⟩ := Attempt.gives_bind (.inl Attempt.flat_throw) h
      exact absurd h Attempt.gives_throw

end SignerBench.Emulator.Session
