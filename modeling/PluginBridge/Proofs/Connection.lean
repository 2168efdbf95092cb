import Mathlib.Algebra.Order.BigOperators.Group.List
import Mathlib.Algebra.Order.Group.Nat
import PluginBridge.Proofs.Exchange
import PluginBridge.Transport.Connection

/-! The replies of a served connection: the writer keeps them whole in every order of the tasks, and
a request is left without a reply exactly if its reply is too large for a frame. -/

namespace PluginBridge

/-- What a call came to in some world is a result that it may return. -/
theorem Handling.returns_run {σ τ : Type} {world : World τ} (handling : Handling σ)
    {outside after : τ} {state : σ} {result : Except TransportError Bytes}
    (ran : handling.run world outside = (after, some (state, result))) :
    handling.Returns result := by
  induction handling generalizing outside with
  | reply given answer =>
    cases ran
    exact .reply _ _
  | dial address next ih => exact .dial address _ (ih _ ran)
  | call method body next ih =>
    rw [run] at ran
    split at ran
    · exact .call method body _ (ih _ ran)
    · cases ran
  | hangUp next ih => exact .hangUp (ih ran)

namespace Connection

variable {σ : Type} {server : Server σ}

/-! ## Replies and the bytes of a stream -/

/-- The bytes are whole reply frames in some order: one for each answer, with the number of its
request and the result of its call. -/
def Answered (answers : List Answer) (bytes : Bytes) : Prop :=
  ∃ replies : List ResponseFrame, replies.Perm (answers.map Answer.reply) ∧
    bytes = replies.flatMap fun reply => Frame.frame (ResponseFrame.form.write reply)

def replyStream (settled : List Answer) : Bytes :=
  settled.flatMap fun answer => Server.replyBytes answer.request.seq answer.result

theorem replyStream_append (settled : List Answer) (answer : Answer) :
    replyStream (settled ++ [answer]) =
      replyStream settled ++ Server.replyBytes answer.request.seq answer.result := by
  simp only [replyStream, List.flatMap_append, List.flatMap_cons, List.flatMap_nil, List.append_nil]

theorem replyBytes_of_fits {answer : Answer} (fits : Frame.Fits ResponseFrame.form answer.reply) :
    Server.replyBytes answer.request.seq answer.result =
      Frame.frame (ResponseFrame.form.write answer.reply) := by
  rw [Answer.reply] at fits ⊢
  rw [Server.replyBytes, Frame.write_of_fits fits]

theorem replyBytes_of_not_fits {answer : Answer}
    (large : ¬ Frame.Fits ResponseFrame.form answer.reply) :
    Server.replyBytes answer.request.seq answer.result = [] := by
  rw [Answer.reply] at large
  rw [Server.replyBytes, Frame.write_of_not_fits large]

theorem length_replyBytes_le (answer : Answer) :
    (Server.replyBytes answer.request.seq answer.result).length ≤
      (Frame.frame (ResponseFrame.form.write answer.reply)).length := by
  by_cases fits : Frame.Fits ResponseFrame.form answer.reply
  · rw [replyBytes_of_fits fits]
  · rw [replyBytes_of_not_fits fits]
    exact Nat.zero_le _

theorem length_replyBytes_lt {answer : Answer}
    (large : ¬ Frame.Fits ResponseFrame.form answer.reply) :
    (Server.replyBytes answer.request.seq answer.result).length <
      (Frame.frame (ResponseFrame.form.write answer.reply)).length := by
  rw [replyBytes_of_not_fits large, Frame.frame, List.length_append, Bytes.length_littleEndian,
    List.length_nil]
  omega

/-- A missing reply shows in the number of bytes, however the others are ordered. -/
theorem answered_replyStream {settled answers : List Answer} (all : answers.Perm settled) :
    Answered answers (replyStream settled) ↔
      ∀ answer ∈ answers, Frame.Fits ResponseFrame.form answer.reply := by
  constructor
  · rintro ⟨replies, ordered, stream⟩
    by_contra missing
    rw [not_forall] at missing
    obtain ⟨answer, missing⟩ := missing
    rw [Classical.not_imp] at missing
    obtain ⟨member, large⟩ := missing
    have fewer := List.sum_lt_sum
      (fun answer : Answer => (Server.replyBytes answer.request.seq answer.result).length)
      (fun answer => (Frame.frame (ResponseFrame.form.write answer.reply)).length)
      (fun answer _ => length_replyBytes_le answer)
      ⟨answer, all.mem_iff.mp member, length_replyBytes_lt large⟩
    have framed : (replies.map fun reply =>
          (Frame.frame (ResponseFrame.form.write reply)).length).sum =
        (settled.map fun answer =>
          (Frame.frame (ResponseFrame.form.write answer.reply)).length).sum := by
      have counted := ((ordered.trans (all.map Answer.reply)).map fun reply =>
        (Frame.frame (ResponseFrame.form.write reply)).length).sum_nat
      rw [List.map_map] at counted
      exact counted
    have same := congrArg List.length stream
    rw [replyStream, List.length_flatMap, List.length_flatMap, framed] at same
    exact absurd same (Nat.ne_of_lt fewer)
  · intro fits
    refine ⟨settled.map Answer.reply, all.symm.map Answer.reply, ?_⟩
    rw [replyStream, List.flatMap_map]
    apply List.flatMap_congr
    intro answer member
    exact replyBytes_of_fits (fits answer (all.mem_iff.mpr member))

/-! ## What every step keeps -/

/-- Where the requests and the answers of an open connection are: `later` requests are unread, the
others run or have returned; of those that have returned some are ready and the others are
`settled`, and the bytes written are theirs. -/
structure Accounts (server : Server σ) (requests : List RequestFrame) (connection : Connection)
    (later : List RequestFrame) (settled : List Answer) : Prop where
  unread : connection.unread = requestStream later
  requests : (connection.running ++ connection.returned.map Answer.request ++ later).Perm requests
  answers : connection.returned.Perm (connection.ready ++ settled)
  written : connection.written ++ connection.writing.getD [] = replyStream settled
  results : ∀ answer ∈ connection.returned, server.MayReturn answer

theorem accounts_accepted (requests : List RequestFrame) :
    Accounts server requests (accepted requests) requests [] :=
  ⟨rfl, .refl _, .refl _, rfl, nofun⟩

theorem requestStream_cons (request : RequestFrame) (later : List RequestFrame) :
    requestStream (request :: later) =
      Frame.frame (RequestFrame.form.write request) ++ requestStream later :=
  List.flatMap_cons

/-- Only what has been sent is read, and what has been sent can be read. -/
theorem read_requestStream {later : List RequestFrame}
    (fits : ∀ request ∈ later, Frame.Fits RequestFrame.form request) {request : RequestFrame}
    {rest : Bytes}
    (found : Frame.read RequestFrame.form (requestStream later) = (.frame request, rest)) :
    ∃ others, later = request :: others ∧ rest = requestStream others := by
  cases later with
  | nil =>
    rw [show Frame.read RequestFrame.form (requestStream []) = (.closed, []) from rfl] at found
    cases found
  | cons first others =>
    have framed := fits first List.mem_cons_self
    rw [requestStream_cons,
      Frame.read_frame (RequestFrame.roundTrips first framed.word) framed] at found
    cases found
    exact ⟨others, rfl, rfl⟩

theorem Step.was_open {connection next : Connection} (step : Step server connection next)
    (open_ : next.ended = false) : connection.ended = false := by
  cases step with
  | hangUp => cases open_
  | _ => exact open_

/-- The answer that is taken from those that are ready is settled last. -/
theorem settle_perm (before : List Answer) (answer : Answer) (after settled : List Answer) :
    (before ++ answer :: after ++ settled).Perm (before ++ after ++ (settled ++ [answer])) := by
  rw [List.append_assoc, List.append_assoc, List.cons_append, ← List.append_assoc after]
  exact List.Perm.append_left _ (List.perm_append_singleton answer _).symm

theorem Step.accounts {requests later : List RequestFrame} {settled : List Answer}
    {connection next : Connection}
    (fits : ∀ request ∈ requests, Frame.Fits RequestFrame.form request)
    (accounts : Accounts server requests connection later settled)
    (step : Step server connection next) (open_ : next.ended = false) :
    ∃ later settled, Accounts server requests next later settled := by
  obtain ⟨unread, whole, answers, written, results⟩ := accounts
  cases step with
  | read found =>
    have sent : ∀ request ∈ later, Frame.Fits RequestFrame.form request := fun request member =>
      fits request (whole.mem_iff.mp (List.mem_append_right _ member))
    rw [unread] at found
    obtain ⟨others, rfl, rfl⟩ := read_requestStream sent found
    refine ⟨others, settled, rfl, ?_, answers, written, results⟩
    refine List.Perm.trans ?_ whole
    simp only [List.append_assoc, List.singleton_append]
    exact List.Perm.append_left _ List.perm_middle.symm
  | returns before answer after running result =>
    refine ⟨later, settled, unread, ?_, ?_, written, ?_⟩
    · refine List.Perm.trans (List.Perm.append_right later ?_) whole
      rw [running, List.map_append, List.map_singleton, ← List.append_assoc]
      refine List.perm_append_comm.trans ?_
      rw [List.singleton_append, List.append_assoc, List.append_assoc, List.cons_append]
      exact List.perm_middle.symm
    · refine (answers.append_right [answer]).trans ?_
      rw [List.append_assoc, List.append_assoc]
      exact List.Perm.append_left _ List.perm_append_comm
    · intro other member
      rcases List.mem_append.mp member with earlier | last
      · exact results other earlier
      · rw [List.mem_singleton.mp last]
        exact result
  | acquire before answer after free ready framed =>
    refine ⟨later, settled ++ [answer], unread, whole, ?_, ?_, results⟩
    · rw [ready] at answers
      exact answers.trans (settle_perm before answer after settled)
    · rw [free, Option.getD_none, List.append_nil] at written
      rw [replyStream_append, ← written, Server.replyBytes, ← Answer.reply, framed]
      rfl
  | refuse before answer after free ready refused =>
    refine ⟨later, settled ++ [answer], unread, whole, ?_, ?_, results⟩
    · rw [ready] at answers
      exact answers.trans (settle_perm before answer after settled)
    · rw [replyStream_append, ← written, Server.replyBytes, ← Answer.reply, refused]
      exact (List.append_nil _).symm
  | write chunk rest writing =>
    refine ⟨later, settled, unread, whole, answers, ?_, results⟩
    rw [writing] at written
    rw [← written]
    exact List.append_assoc _ _ _
  | release done =>
    refine ⟨later, settled, unread, whole, answers, ?_, results⟩
    rw [done] at written
    exact written
  | hangUp => cases open_

theorem Run.accounts {requests : List RequestFrame}
    (fits : ∀ request ∈ requests, Frame.Fits RequestFrame.form request) {last : Connection}
    (run : Run server (accepted requests) last) (open_ : last.ended = false) :
    ∃ later settled, Accounts server requests last later settled := by
  induction run with
  | start => exact ⟨requests, [], accounts_accepted requests⟩
  | step before next ih =>
    obtain ⟨later, settled, accounts⟩ := ih (next.was_open open_)
    exact next.accounts fits accounts open_

/-- On a quiet connection everything is settled. -/
theorem Accounts.quiet {requests later : List RequestFrame} {settled : List Answer}
    {connection : Connection} (accounts : Accounts server requests connection later settled)
    (quiet : connection.Quiet) :
    (connection.returned.map Answer.request).Perm requests ∧ connection.returned.Perm settled ∧
      connection.written = replyStream settled := by
  obtain ⟨_, unread, running, ready, writing⟩ := quiet
  have none_later : later = [] := by
    have nothing := accounts.unread.symm.trans unread
    cases later with
    | nil => rfl
    | cons first others =>
      have counted := congrArg List.length nothing
      rw [requestStream_cons, List.length_append, Frame.length_frame, List.length_nil] at counted
      omega
  have whole := accounts.requests
  have answers := accounts.answers
  have written := accounts.written
  rw [running, none_later, List.append_nil, List.nil_append] at whole
  rw [ready, List.nil_append] at answers
  rw [writing, Option.getD_none, List.append_nil] at written
  exact ⟨whole, answers, written⟩

/-! ## Every order is possible -/

theorem Run.trans {start middle last : Connection} (first : Run server start middle)
    (second : Run server middle last) : Run server start last := by
  induction second with
  | start => exact first
  | step _ next ih => exact ih.step next

theorem run_read (requests : List RequestFrame)
    (fits : ∀ request ∈ requests, Frame.Fits RequestFrame.form request)
    (running : List RequestFrame) :
    Run server { unread := requestStream requests, running := running }
      { unread := [], running := running ++ requests } := by
  induction requests generalizing running with
  | nil =>
    rw [List.append_nil]
    exact .start
  | cons first others ih =>
    have framed := fits first List.mem_cons_self
    have read : Frame.read RequestFrame.form (requestStream (first :: others)) =
        (.frame first, requestStream others) := by
      rw [requestStream_cons]
      exact Frame.read_frame (RequestFrame.roundTrips first framed.word) framed _
    have later := ih (fun request member => fits request (List.mem_cons_of_mem _ member))
      (running ++ [first])
    rw [List.append_assoc, List.singleton_append] at later
    exact (Run.start.step (.read read)).trans later

theorem run_return (answers : List Answer) (results : ∀ answer ∈ answers, server.MayReturn answer)
    {running : List RequestFrame} (all : (answers.map Answer.request).Perm running)
    (earlier : List Answer) :
    Run server { unread := [], running := running, ready := earlier, returned := earlier }
      { unread := [], ready := earlier ++ answers, returned := earlier ++ answers } := by
  induction answers generalizing running earlier with
  | nil =>
    rw [List.append_nil, List.nil_perm.mp all]
    exact .start
  | cons answer others ih =>
    obtain ⟨before, after, rfl⟩ := List.append_of_mem (all.subset List.mem_cons_self)
    have left : (others.map Answer.request).Perm (before ++ after) :=
      (all.trans List.perm_middle).cons_inv
    have later := ih (fun other member => results other (List.mem_cons_of_mem _ member)) left
      (earlier ++ [answer])
    rw [List.append_assoc, List.singleton_append] at later
    exact (Run.start.step (.returns before answer after rfl
      (results answer List.mem_cons_self))).trans later

theorem run_settle (returned answers : List Answer) (written : Bytes) :
    Run server { unread := [], ready := answers, written := written, returned := returned }
      { unread := [], written := written ++ replyStream answers, returned := returned } := by
  induction answers generalizing written with
  | nil =>
    rw [show replyStream [] = [] from rfl, List.append_nil]
    exact .start
  | cons answer others ih =>
    have later := ih (written ++ Server.replyBytes answer.request.seq answer.result)
    rw [List.append_assoc] at later
    refine Run.trans ?_ later
    rw [Server.replyBytes, ← Answer.reply]
    cases framed : Frame.write ResponseFrame.form answer.reply with
    | error error =>
      have refused : Step server
          { unread := [], ready := answer :: others, written := written, returned := returned }
          { unread := [], ready := others, written := written, returned := returned } :=
        .refuse [] answer others rfl rfl framed
      rw [List.append_nil]
      exact Run.start.step refused
    | ok bytes =>
      have acquired : Step server
          { unread := [], ready := answer :: others, written := written, returned := returned }
          { unread := [], ready := others, writing := some bytes, written := written,
            returned := returned } :=
        .acquire [] answer others rfl rfl framed
      have whole := (Run.start.step acquired).step
        (.write bytes [] (congrArg some (List.append_nil bytes).symm))
      exact whole.step (.release rfl)

/-- The calls of requests may return in any order, with any results that they may come to; then all
tasks finish. -/
theorem exists_run {requests : List RequestFrame}
    (fits : ∀ request ∈ requests, Frame.Fits RequestFrame.form request) (answers : List Answer)
    (results : ∀ answer ∈ answers, server.MayReturn answer)
    (all : (answers.map Answer.request).Perm requests) :
    ∃ last, Run server (accepted requests) last ∧ last.Quiet ∧ last.returned = answers ∧
      last.written = replyStream answers := by
  have read : Run server (accepted requests) { unread := [], running := requests } :=
    run_read requests fits []
  have returned := run_return answers results all []
  have settled : Run server { unread := [], ready := answers, returned := answers } _ :=
    run_settle answers answers []
  exact ⟨_, (read.trans returned).trans settled, ⟨rfl, rfl, rfl, rfl, rfl⟩, rfl, rfl⟩

/-- What a link does with the bytes of one request is a run of a connection. -/
theorem run_serveRequest {τ : Type} {world : World τ} {outside after : τ} {state next : σ}
    {request : RequestFrame} {result : Except TransportError Bytes}
    (fits : Frame.Fits RequestFrame.form request)
    (handled : (server.handle request.method request.body state).run world outside =
      (after, some (next, result))) :
    ∃ last, Run server (accepted [request]) last ∧ last.Quiet ∧
      Link.serveRequest world server (requestStream [request]) state outside =
        (after, next, last.written) := by
  have results : ∀ answer ∈ [Answer.mk request result], server.MayReturn answer := by
    intro answer member
    rw [List.mem_singleton.mp member]
    exact ⟨state, Handling.returns_run _ handled⟩
  have sent : ∀ other ∈ [request], Frame.Fits RequestFrame.form other := by
    intro other member
    rw [List.mem_singleton.mp member]
    exact fits
  obtain ⟨last, run, quiet, _, written⟩ := exists_run sent [⟨request, result⟩] results (.refl _)
  have read : Frame.read RequestFrame.form (requestStream [request]) = (.frame request, []) :=
    Frame.read_frame (RequestFrame.roundTrips request fits.word) fits []
  refine ⟨last, run, quiet, ?_⟩
  rw [Link.serveRequest, read, written]
  dsimp only
  rw [handled]
  exact congrArg (fun bytes => (after, next, bytes)) (List.append_nil _).symm

/-! ## Requests without a reply -/

theorem replyStream_filter (settled : List Answer) :
    replyStream (settled.filter fun answer => Frame.Fits ResponseFrame.form answer.reply) =
      replyStream settled := by
  induction settled with
  | nil => rfl
  | cons answer others ih =>
    by_cases fits : Frame.Fits ResponseFrame.form answer.reply
    · rw [List.filter_cons, if_pos (decide_eq_true fits)]
      exact congrArg (Server.replyBytes answer.request.seq answer.result ++ ·) ih
    · have dropped : ¬ decide (Frame.Fits ResponseFrame.form answer.reply) = true := by
        rw [decide_eq_false fits]
        exact Bool.false_ne_true
      rw [List.filter_cons, if_neg dropped, ih, replyStream, replyStream, List.flatMap_cons,
        replyBytes_of_not_fits fits, List.nil_append]

/-- When all calls on a connection have returned, in whatever order, the bytes written are one whole
reply for each request whose reply fits into a frame. The others are left without one, so each
request has its reply exactly if all replies fit. -/
theorem answered_iff_replies_fit {requests : List RequestFrame}
    (fits : ∀ request ∈ requests, Frame.Fits RequestFrame.form request) {last : Connection}
    (run : Run server (accepted requests) last) (quiet : last.Quiet) :
    (last.returned.map Answer.request).Perm requests ∧
      (∀ answer ∈ last.returned, server.MayReturn answer) ∧
      Answered (last.returned.filter fun answer => Frame.Fits ResponseFrame.form answer.reply)
        last.written ∧
      (Answered last.returned last.written ↔
        ∀ answer ∈ last.returned, Frame.Fits ResponseFrame.form answer.reply) := by
  obtain ⟨later, settled, accounts⟩ := run.accounts fits quiet.1
  obtain ⟨whole, all, written⟩ := accounts.quiet quiet
  refine ⟨whole, accounts.results, ?_, ?_⟩
  · rw [written, ← replyStream_filter]
    refine (answered_replyStream (all.filter _)).mpr ?_
    intro answer member
    exact of_decide_eq_true (List.mem_filter.mp member).2
  · rw [written]
    exact answered_replyStream all

section Example

def echo : Service Unit :=
  Service.ofAnswer fun _ body state => (state, .ok body)

def echoRequests : List RequestFrame :=
  [⟨1, "Echo.Say", [7]⟩, ⟨2, "Say", []⟩]

/-- The second call, whose name asks for no service, returns first. -/
def echoAnswers : List Answer :=
  [⟨⟨2, "Say", []⟩, .error (.malformedMethod "Say")⟩, ⟨⟨1, "Echo.Say", [7]⟩, .ok [7]⟩]

theorem fits_echoRequests : ∀ request ∈ echoRequests, Frame.Fits RequestFrame.form request := by
  decide

theorem mayReturn_echoAnswers :
    ∀ answer ∈ echoAnswers, Server.MayReturn [("Echo", echo)] answer := by
  intro answer member
  rw [echoAnswers, List.mem_cons, List.mem_singleton] at member
  rcases member with rfl | rfl
  · exact ⟨(), .reply () _⟩
  · exact ⟨(), .reply () _⟩

theorem answered_echo : ∃ last, Run [("Echo", echo)] (accepted echoRequests) last ∧ last.Quiet ∧
    Answered echoAnswers last.written := by
  obtain ⟨last, run, quiet, returned, _⟩ := exists_run fits_echoRequests echoAnswers
    mayReturn_echoAnswers (List.Perm.swap _ _ _)
  have answered := (answered_iff_replies_fit fits_echoRequests run quiet).2.2.2
  rw [returned] at answered
  exact ⟨last, run, quiet, answered.mpr (by decide)⟩

/-- A service that answers each call with as many bytes as a frame may have. -/
def flood : Service Unit :=
  Service.ofAnswer fun _ _ state => (state, .ok (List.replicate Frame.limit 0))

def floodRequest : RequestFrame :=
  ⟨1, "Flood.Fill", []⟩

def floodAnswer : Answer :=
  ⟨floodRequest, .ok (List.replicate Frame.limit 0)⟩

theorem floodAnswer_large : ¬ Frame.Fits ResponseFrame.form floodAnswer.reply := by
  rw [Frame.Fits, Nat.not_le]
  simp only [floodAnswer, floodRequest, Answer.reply, Server.replyFrame, ResponseFrame.form,
    Compact.Form.as, Compact.Form.pair, Compact.Form.bytes, Compact.Form.option, List.length_append,
    List.length_replicate]
  have numbered : (Compact.Form.word64.write 1).length = 1 := rfl
  omega

theorem mayReturn_floodAnswer :
    ∀ answer ∈ [floodAnswer], Server.MayReturn [("Flood", flood)] answer := by
  intro answer member
  rw [List.mem_singleton.mp member]
  exact ⟨(), .reply () _⟩

/-- Nothing is written for the one request on a connection, though its call has returned and the
connection is open. -/
theorem flood_unanswered : ∃ last, Run [("Flood", flood)] (accepted [floodRequest]) last ∧
    last.Quiet ∧ last.returned = [floodAnswer] ∧ last.written = [] ∧
    ¬ Answered last.returned last.written := by
  have fits : ∀ request ∈ [floodRequest], Frame.Fits RequestFrame.form request := by
    decide
  obtain ⟨last, run, quiet, returned, written⟩ := exists_run fits [floodAnswer]
    mayReturn_floodAnswer (.refl _)
  have silent : replyStream [floodAnswer] = [] := by
    rw [replyStream, List.flatMap_singleton]
    exact replyBytes_of_not_fits floodAnswer_large
  refine ⟨last, run, quiet, returned, written.trans silent, ?_⟩
  rw [returned, written, answered_replyStream (.refl _)]
  intro all
  exact floodAnswer_large (all floodAnswer (List.mem_singleton_self _))

end Example

end Connection

end PluginBridge
