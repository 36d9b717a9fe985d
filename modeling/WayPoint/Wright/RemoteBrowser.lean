import WayPoint.Foundations.Overlap
import WayPoint.Wright.RemoteCall

/-! Many clients of one browser, each on its own connection. The calls of Playwright are awaited, so
those of different connections may overlap. -/
namespace WayPoint.Wright
open Foundations TzafonWrightClient BrowserServer

variable {ι φ σ : Type} [DecidableEq ι] {lib : Stdlib φ} {page : Bool}

/-- What a client does: its commands, what happened at its end of the connection, and what its calls
returned. -/
structure Visit (φ : Type) where
  cmds : List (Command φ)
  said : List (Sigma (@ClientAwait.Reply Unit))
  returned : List (Returned φ)

/-- A visit over a connection that stays open and delivers in order, where `server` happened at the
other end. -/
structure Visit.Linked (lib : Stdlib φ) (visit : Visit φ) (server : List (Sigma (@Awaited.Reply φ))) : Prop where
  sendable : ∀ cmd ∈ visit.cmds, cmd.Sendable lib
  session : (session lib () visit.cmds).run.Dialogue visit.said (.ok visit.returned)
  undisturbed : ∀ e ∈ visit.said, Undisturbed e
  sends : ∀ e ∈ server, SendSucceeds e
  delivered : visit.said.filterMap received? <+: server.filterMap response?

/-- The messages the server gets. -/
def Visit.messages (visit : Visit φ) : List Message := visit.said.filterMap sent?

/-- The messages of sendable commands have no surrogate for an action type. -/
theorem Command.Sendable.not_surrogate {cmd : Command φ} (h : cmd.Sendable lib) :
    ¬ SurrogateAction lib (.bytes (cmd.dump lib)) := by
  intro hbad
  obtain ⟨e, herror⟩ := Command.load_surrogate hbad
  rw [Command.load_dump h.wellTyped h.json] at herror
  cases herror

/-- Over one connection: the commands are carried out in their order, and what they led to is what is
returned. -/
theorem Visit.Linked.calls {visit : Visit φ} {server : List (Sigma (@Awaited.Reply φ))} {peerName : Text}
    {out : Except PyException Unit} (h : visit.Linked lib server)
    (hserver : (handleConnection lib page peerName visit.messages).run.Dialogue server out) :
    ∃ results : List (Result φ), results.length = visit.cmds.length ∧
      Conducts (fun cmd => (execute lib page cmd).run) (fun e => ¬ Quiet e.1)
        (visit.cmds.zip (results.map .ok)) server ∧
      ((∀ result ∈ results, result.Kept lib) →
        visit.returned = results.map fun result => .loaded result.received) := by
  obtain ⟨hsent, hreturned, hcount⟩ := session_dialogue h.sendable h.session h.undisturbed
  have hgood : ∀ message ∈ visit.messages, ¬ SurrogateAction lib message := by
    intro message hmessage
    rw [Visit.messages, hsent] at hmessage
    obtain ⟨cmd, hcmd, rfl⟩ := List.mem_map.mp hmessage
    exact (h.sendable cmd hcmd).not_surrogate
  obtain ⟨results, hanswers⟩ : ∃ results, Answers lib page visit.messages results server := by
    rcases Program.dialogue_run_tryCatch_iff.mp hserver with ⟨_, hloop, _⟩ | ⟨_, first, _, rfl, hraised, _⟩
    · exact (handleMessages_answers hgood hloop h.sends).1
    · cases (handleMessages_answers hgood hraised fun e he => h.sends e (List.mem_append_left _ he)).2
  rw [Visit.messages, hsent] at hanswers
  obtain ⟨hlength, hplain, hconducts⟩ := hanswers.conducts h.sendable
  -- as many messages have been received as there are responses
  have hall : visit.said.filterMap received? = server.filterMap response? := by
    refine h.delivered.eq_of_length ?_
    rw [← hreturned.length_eq, hcount, hanswers.responses, List.length_map, hlength]
  rw [hall, hanswers.responses] at hreturned
  refine ⟨results, hlength, hconducts, fun hkept => ?_⟩
  exact returned_eq hreturned fun result hresult => ⟨hplain result hresult, hkept result hresult⟩

section serial
variable {playwright : Engine (@Awaited.Reply φ) σ} {peerName : ι → Text} {visits : ι → Visit φ}

/-- What came of one visit: its commands were carried out in their order with these results, and these
are what its calls returned. -/
structure Visit.Answered (lib : Stdlib φ) (page : Bool) (visit : Visit φ) (server : List (Sigma (@Awaited.Reply φ)))
    (results : List (Result φ)) : Prop where
  length : results.length = visit.cmds.length
  conducts : Conducts (fun cmd => (execute lib page cmd).run) (fun e => ¬ Quiet e.1)
    (visit.cmds.zip (results.map .ok)) server
  returned : (∀ result ∈ results, result.Kept lib) →
    visit.returned = results.map fun result => .loaded result.received

end serial

section screenshots

def screenshot : Result Unit := { success := .bool true, image := some [1, 2, 3] }

/-- The page goes on by itself, and the screenshots of it are counted. -/
structure Film where
  frames : Nat
  shots : Nat
deriving DecidableEq

abbrev FilmEvent := Bool × Served (Half.Answer (@Awaited.Reply Unit)) (Busy (Awaited Unit) Film)

section steps
variable {past : List FilmEvent} {thread : Bool → Option FilmProgram} {film : Film} {running : List (Awaited Unit)}

end steps

end screenshots
end WayPoint.Wright
