import SlashBot.Proofs.Admitted
import SlashBot.Proofs.Following
import SlashBot.Proofs.Path

/-!
# Reach

What a command says decides about names and texts, but not about where they are sent: an
invocation sends requests to the places of its own issue, to the reactions of a comment, to
the dispatches of its repository and to the endpoint for queries. A label is removed under a
single segment that encodes its name. The names of the two dot segments have no such segment:
a request to remove one of them goes to all labels, or to the issue itself.
-/

namespace SlashBot

open Text Url

/-! ## Places -/

/-- A part of the name of a repository: letters, digits, underscores, hyphens and points, but
no dot segment. -/
structure IsPlainName (name : List Char) : Prop where
  chars : ∀ c ∈ name, isAsciiAlphanumeric c = true ∨ c = '_' ∨ c = '-' ∨ c = '.'
  notDot : name ≠ ['.']
  notDots : name ≠ ['.', '.']

/-- A client for a repository with a plain owner and name, at a base URL without a query. -/
structure Client.IsPlain (client : Client) : Prop where
  repository : ∃ owner name, client.repository.toList = owner ++ '/' :: name ∧
    IsPlainName owner ∧ IsPlainName name
  base : ∃ text, Url.ofText text = .ok client.base
  query : client.base.query = none

/-- The places in a repository where a request about an issue may go, and how. -/
inductive Endpoint (number : Int) : (method : Method) → (path : String) → Prop
  | comments : Endpoint number .post ("/issues/" ++ toString number ++ "/comments")
  | reactions (id : Int) :
      Endpoint number .post ("/issues/comments/" ++ toString id ++ "/reactions")
  | state : Endpoint number .patch ("/issues/" ++ toString number)
  | lock : Endpoint number .put ("/issues/" ++ toString number ++ "/lock")
  | unlock : Endpoint number .delete ("/issues/" ++ toString number ++ "/lock")
  | addLabels : Endpoint number .post ("/issues/" ++ toString number ++ "/labels")
  | removeLabel {segment : List Char} (single : IsSegment segment) (filled : segment ≠ []) :
      Endpoint number .delete
        ("/issues/" ++ toString number ++ "/labels/" ++ String.ofList segment)
  | addAssignees : Endpoint number .post ("/issues/" ++ toString number ++ "/assignees")
  | removeAssignees : Endpoint number .delete ("/issues/" ++ toString number ++ "/assignees")
  | dispatches : Endpoint number .post "/dispatches"

/-- Names of labels that are no segment of a path, with the path at which a removal of such a
label arrives. -/
inductive Misplaced (number : Int) : (name path : String) → Prop
  | dot : Misplaced number "." ("/issues/" ++ toString number ++ "/labels")
  | dots : Misplaced number ".." ("/issues/" ++ toString number)
  | empty : Misplaced number "" ("/issues/" ++ toString number ++ "/labels/")

namespace Client

/-- The URL of the endpoint for queries. -/
def queryUrl (client : Client) : Except Fault Url := do
  client.base.resolve (← Url.ofText client.queries.toList)

/-- A request goes to a path in the repository. -/
def SendsTo (client : Client) (request : Request) (path : String) : Prop :=
  request.origin = client.base.origin ∧
    request.path = String.ofList client.base.front ++ "repos/" ++ client.repository ++ path

/-- A request is a query, or it goes to an endpoint for an issue. -/
def Owns (client : Client) (number : Int) (request : Request) : Prop :=
  (request.method = .post ∧ ∃ url, client.queryUrl = .ok url ∧
    request.origin = url.origin ∧ request.path = String.ofList url.target) ∨
  ∃ path, Endpoint number request.method path ∧ client.SendsTo request path

/-! ## Requests for calls -/

variable {client : Client} {call : Call} {request : Request} {path : String} {rest tail : List Char}

theorem IsPlain.isBase (plain : client.IsPlain) : client.base.IsBase where
  path := by
    obtain ⟨text, read⟩ := plain.base
    exact isSettled_of_ofText read
  query := plain.query

theorem isSegment_of_isPlainName {name : List Char} (plain : IsPlainName name) :
    IsSegment name := by
  apply isSegment_of_isUnreserved _ plain.notDot plain.notDots
  intro c member
  left
  rcases plain.chars c member with letter | rfl | rfl | rfl
  · exact isUnreserved_of_isAsciiAlphanumeric letter
  all_goals decide

/-- The path of the repository is settled. -/
theorem IsPlain.isSettled (plain : client.IsPlain) :
    IsSettled ("repos/".toList ++ client.repository.toList) := by
  obtain ⟨owner, name, repository, plainOwner, plainName⟩ := plain.repository
  have repos : IsSettled "repos".toList := by
    exact (isSegment_of_letters (by decide)).isSettled
  have whole : "repos/".toList ++ client.repository.toList =
      "repos".toList ++ '/' :: (owner ++ '/' :: name) := by
    rw [repository]
    rfl
  rw [whole]
  exact IsSettled.append_cons_iff.mpr ⟨repos, IsSettled.append_cons_iff.mpr
    ⟨(isSegment_of_isPlainName plainOwner).isSettled,
      (isSegment_of_isPlainName plainName).isSettled⟩⟩

/-- How the request of a call is addressed. -/
theorem of_request_ok (made : client.request call = .ok request) :
    ∃ relative url, Url.ofText (client.address call.place).toList = .ok relative ∧
      client.base.resolve relative = .ok url ∧ request.call = call ∧
      request.origin = url.origin ∧ request.path = String.ofList url.target := by
  rw [Client.request] at made
  obtain ⟨relative, read, resolving⟩ := exists_of_bind_ok made
  obtain ⟨url, resolved, checking⟩ := exists_of_bind_ok resolving
  split at checking
  · cases checking
    exact ⟨relative, url, read, resolved, rfl, rfl, rfl⟩
  · cases checking

/-- A call for a path in the repository is sent to the settled part of the path if what is
behind it is lost. -/
theorem IsPlain.sendsTo (plain : client.IsPlain) (made : client.request call = .ok request)
    (place : call.place = .repository path) (shape : path.toList = '/' :: rest ++ tail)
    (settled : IsSettled rest) (standing : ∀ c ∈ tail, isPathChar c = true)
    (lost : ∀ front, IsSettled front → withoutDots (front ++ tail) = front) :
    client.SendsTo request (String.ofList ('/' :: rest)) := by
  have body : IsSettled ("repos/".toList ++ client.repository.toList ++ '/' :: rest) :=
    IsSettled.append_cons_iff.mpr ⟨plain.isSettled, settled⟩
  have whole := IsSettled.cons_iff.mpr body
  have address : (client.address call.place).toList =
      '/' :: (("repos/".toList ++ client.repository.toList ++ '/' :: rest) ++ tail) := by
    rw [place, Client.address, String.toList_append, shape]
    simp
  have chars : ∀ c ∈ '/' :: (("repos/".toList ++ client.repository.toList ++ '/' :: rest) ++ tail),
      isPathChar c = true := by
    intro c member
    rw [← List.cons_append, List.mem_append] at member
    rcases member with front | behind
    · exact whole.chars c front
    · exact standing c behind
  obtain ⟨relative, url, read, resolved, -, origin, target⟩ := of_request_ok made
  rw [address] at read
  rw [ofText_path chars (by simp) read, ← List.cons_append, lost _ whole,
    percentEncode_eq_self whole.chars] at resolved
  have sent := plain.isBase.resolve_path body (by simp) resolved
  rw [sent] at origin target
  refine ⟨origin, ?_⟩
  rw [target, Url.target, ← String.toList_inj]
  simp

/-- A call for a settled path is sent to that path. -/
theorem IsPlain.sendsTo_path (plain : client.IsPlain) (made : client.request call = .ok request)
    (place : call.place = .repository path) (shape : path.toList = '/' :: rest)
    (settled : IsSettled rest) : client.SendsTo request path := by
  rw [← String.ofList_toList (s := path), shape]
  apply plain.sendsTo made place (List.append_nil _ ▸ shape) settled (List.forall_mem_nil _)
  intro front frontSettled
  rw [List.append_nil]
  exact frontSettled.withoutDots_eq

/-- The place of an issue is a settled path. -/
theorem isSettled_issue (number : Int) :
    IsSettled ("issues/".toList ++ (toString number).toList) := by
  have issues : IsSettled "issues".toList :=
    (isSegment_of_letters (by decide)).isSettled
  have whole : "issues/".toList ++ (toString number).toList =
      "issues".toList ++ '/' :: (toString number).toList := rfl
  rw [whole]
  exact IsSettled.append_cons_iff.mpr ⟨issues, (isSegment_toString number).isSettled⟩

variable {number : Int} {part : String}

theorem IsPlain.sendsTo_issue (plain : client.IsPlain) (made : client.request call = .ok request)
    (place : call.place = .repository ("/issues/" ++ toString number)) :
    client.SendsTo request ("/issues/" ++ toString number) := by
  apply plain.sendsTo_path made place _ (isSettled_issue number)
  simp

theorem IsPlain.sendsTo_part (plain : client.IsPlain) (made : client.request call = .ok request)
    (place : call.place = .repository ("/issues/" ++ toString number ++ part))
    (shape : part.toList = '/' :: rest) (settled : IsSettled rest) :
    client.SendsTo request ("/issues/" ++ toString number ++ part) := by
  apply plain.sendsTo_path made place _
    (IsSettled.append_cons_iff.mpr ⟨isSettled_issue number, settled⟩)
  simp [shape]

theorem isSegment_labels : IsSegment "labels".toList :=
  isSegment_of_letters (by decide)

/-- The removal of a label named by a point goes to all labels. -/
theorem IsPlain.sendsTo_dot (plain : client.IsPlain)
    (made : client.request (.removeLabel (.int number) ".") = .ok request) :
    client.SendsTo request ("/issues/" ++ toString number ++ "/labels") := by
  have labels : IsSettled ("issues/".toList ++ (toString number).toList ++
      '/' :: "labels".toList) :=
    IsSettled.append_cons_iff.mpr ⟨isSettled_issue number, isSegment_labels.isSettled⟩
  have shape : ("/issues/" ++ toString number ++ "/labels/.").toList =
      '/' :: ("issues/".toList ++ (toString number).toList ++ '/' :: "labels".toList) ++
        ['/', '.'] := by simp
  have sent := plain.sendsTo made rfl shape labels (List.all_eq_true.mp (by decide))
    fun front settled => settled.withoutDots_dot
  have same : "/issues/" ++ toString number ++ "/labels" = String.ofList
      ('/' :: ("issues/".toList ++ (toString number).toList ++ '/' :: "labels".toList)) := by
    rw [← String.toList_inj]
    simp
  rw [same]
  exact sent

/-- The removal of a label named by two points goes to the issue itself. -/
theorem IsPlain.sendsTo_dots (plain : client.IsPlain)
    (made : client.request (.removeLabel (.int number) "..") = .ok request) :
    client.SendsTo request ("/issues/" ++ toString number) := by
  have shape : ("/issues/" ++ toString number ++ "/labels/..").toList =
      '/' :: ("issues/".toList ++ (toString number).toList) ++
        ('/' :: "labels".toList ++ ['/', '.', '.']) := by simp
  have sent := plain.sendsTo made rfl shape (isSettled_issue number)
    (List.all_eq_true.mp (by decide)) fun front settled => by
      rw [← List.append_assoc]
      exact settled.withoutDots_dots isSegment_labels
  have same : "/issues/" ++ toString number = String.ofList
      ('/' :: ("issues/".toList ++ (toString number).toList)) := by
    rw [← String.toList_inj]
    simp
  rw [same]
  exact sent

/-! ## Where calls go -/

/-- A call for an endpoint goes there. -/
theorem owns_of_sendsTo {method : Method} (made : client.request call = .ok request)
    (asked : call.method = method) (endpoint : Endpoint number method path)
    (sent : client.SendsTo request path) : client.Owns number request := by
  refine .inr ⟨path, ?_, sent⟩
  rw [Request.method, client.request_call call made, asked]
  exact endpoint

/-- A call for a part of the issue that is a single segment goes there. -/
theorem IsPlain.owns_part {method : Method} (plain : client.IsPlain)
    (made : client.request call = .ok request) (asked : call.method = method)
    (place : call.place = .repository ("/issues/" ++ toString number ++ part))
    (endpoint : Endpoint number method ("/issues/" ++ toString number ++ part))
    (shape : part.toList = '/' :: rest) (single : IsSegment rest) : client.Owns number request :=
  owns_of_sendsTo made asked endpoint (plain.sendsTo_part made place shape single.isSettled)

theorem IsPlain.owns_query (made : client.request call = .ok request)
    (asked : call.method = .post) (place : call.place = .queries) :
    client.Owns number request := by
  obtain ⟨relative, url, read, resolved, same, origin, target⟩ := of_request_ok made
  rw [place, Client.address] at read
  refine .inl ⟨?_, url, ?_, origin, target⟩
  · rw [Request.method, same, asked]
  · rw [queryUrl, read]
    exact resolved

/-- A call about the issue goes to one of its endpoints. -/
theorem IsPlain.owns_of_concerns (plain : client.IsPlain)
    (made : client.request call = .ok request) (concerns : call.Concerns (.int number)) :
    client.Owns number request := by
  cases call with
  | createComment own text =>
      cases concerns
      exact plain.owns_part made rfl rfl .comments rfl (isSegment_of_letters (by decide))
  | setState own state =>
      cases concerns
      have place : Call.place (.setState (.int number) state) =
          .repository ("/issues/" ++ toString number) := by
        simp [Call.place, Call.issuePath, Value.display, Value.literal]
      exact owns_of_sendsTo made rfl .state (plain.sendsTo_issue made place)
  | lock own reason =>
      cases concerns
      exact plain.owns_part made rfl rfl .lock rfl (isSegment_of_letters (by decide))
  | unlock own =>
      cases concerns
      exact plain.owns_part made rfl rfl .unlock rfl (isSegment_of_letters (by decide))
  | addLabels own names =>
      cases concerns
      exact plain.owns_part made rfl rfl .addLabels rfl isSegment_labels
  | addAssignees own names =>
      cases concerns
      exact plain.owns_part made rfl rfl .addAssignees rfl (isSegment_of_letters (by decide))
  | removeAssignees own names =>
      cases concerns
      exact plain.owns_part made rfl rfl .removeAssignees rfl (isSegment_of_letters (by decide))
  | pin node => exact IsPlain.owns_query made rfl rfl
  | unpin node => exact IsPlain.owns_query made rfl rfl
  | dispatch event payload =>
      have single : IsSegment "dispatches".toList :=
        isSegment_of_letters (by decide)
      exact owns_of_sendsTo made rfl .dispatches
        (plain.sendsTo_path made rfl rfl single.isSettled)
  | _ => cases concerns

/-- A reaction goes to the reactions of its comment. -/
theorem IsPlain.owns_reaction {id : Int} {name : String} (plain : client.IsPlain)
    (made : client.request (.addReaction (.int id) name) = .ok request) :
    client.Owns number request := by
  have comments : IsSegment "comments".toList := isSegment_of_letters (by decide)
  have issues : IsSegment "issues".toList := isSegment_of_letters (by decide)
  have reactions : IsSegment "reactions".toList := isSegment_of_letters (by decide)
  have settled : IsSettled ("issues".toList ++ '/' :: ("comments".toList ++
      '/' :: ((toString id).toList ++ '/' :: "reactions".toList))) := by
    simp only [IsSettled.append_cons_iff]
    exact ⟨issues.isSettled, comments.isSettled, (isSegment_toString id).isSettled,
      reactions.isSettled⟩
  apply owns_of_sendsTo made rfl (.reactions id)
  apply plain.sendsTo_path made rfl _ settled
  have shown : (Value.int id).display = toString id := rfl
  simp [shown]

/-- The removal of a label goes to the segment that encodes its name, if there is one. -/
theorem IsPlain.owns_removal {name : String} (plain : client.IsPlain)
    (made : client.request (.removeLabel (.int number) name) = .ok request) :
    client.Owns number request ∨ ∃ path, Misplaced number name path ∧
      client.SendsTo request path := by
  by_cases dot : name = "."
  · subst dot
    exact .inr ⟨_, .dot, plain.sendsTo_dot made⟩
  by_cases dots : name = ".."
  · subst dots
    exact .inr ⟨_, .dots, plain.sendsTo_dots made⟩
  have single : IsSegment (percentComponent name.toList) := by
    apply isSegment_percentComponent
    · intro same
      exact dot (String.toList_inj.mp same)
    · intro same
      exact dots (String.toList_inj.mp same)
  have labels := IsSettled.append_cons_iff.mpr ⟨isSegment_labels.isSettled, single.isSettled⟩
  have shape : ("/labels/" ++ String.ofList (percentComponent name.toList)).toList =
      '/' :: ("labels".toList ++ '/' :: percentComponent name.toList) := by simp
  have place : Call.place (.removeLabel (.int number) name) = .repository ("/issues/" ++
      toString number ++ ("/labels/" ++ String.ofList (percentComponent name.toList))) := rfl
  have sent := plain.sendsTo_part made place shape labels
  rw [← String.append_assoc] at sent
  by_cases empty : name = ""
  · subst empty
    have bare : String.ofList (percentComponent "".toList) = "" := rfl
    rw [bare, String.append_empty] at sent
    exact .inr ⟨_, .empty, sent⟩
  · have filled : percentComponent name.toList ≠ [] := by
      intro none
      exact empty (String.toList_inj.mp (percentEncode_eq_nil_iff.mp none))
    exact .inl (owns_of_sendsTo made rfl (.removeLabel single filled) sent)

end Client

/-! ## Invocations -/

/-- The server gives every new comment a number. -/
def Server.NumbersComments (server : Server) : Prop :=
  ∀ earlier request status octets id, (∃ number text, request.call = .createComment number text) →
    server earlier request = .response status octets →
    (Json.ofOctets octets).bind (Value.member "id") = .ok id → ∃ number : Int, id = .int number

/-- A request for a target goes to an endpoint for its issue, or it removes a label whose name
is no segment. Only a label that the target has can have an empty name. -/
def Target.Reaches (target : Target) (client : Client) (number : Int) (request : Request) : Prop :=
  client.Owns number request ∨ ∃ name path, request.call = .removeLabel (.int number) name ∧
    Misplaced number name path ∧ client.SendsTo request path ∧
    (name = "" → .str "" ∈ target.labels)

section Reaching

variable {client : Client} {server : Server} {earlier : List Request} {request : Request}
  {target : Target} {number id : Int} {work : Work} {tasks : List Task}

/-- The requests of admitted work go where they may, if the newest comment has a number. -/
theorem Work.reaches_of_perform (plain : client.IsPlain) (numbered : target.number = .int number)
    (admitted : target.Admits work)
    (sent : request ∈ requestsSent (work.perform client server earlier (.int id)).2) :
    target.Reaches client number request := by
  cases admitted with
  | ask concerns =>
      rw [perform, Run.requestsSent_andThen _ _ fun _ _ => rfl] at sent
      rw [numbered] at concerns
      exact .inl (plain.owns_of_concerns (made_of_ask sent) concerns)
  | react name =>
      rw [perform, Run.requestsSent_andThen _ _ fun _ _ => rfl] at sent
      exact .inl (plain.owns_reaction (made_of_ask sent))
  | @removeEach names some named =>
      have removed : request ∈ requestsSent
          (askEach client server (.int number) earlier names).2 := by
        rw [perform, numbered] at sent
        split at sent <;> exact sent
      obtain ⟨name, member, made⟩ := made_of_askEach removed
      rcases plain.owns_removal made with owns | ⟨path, misplaced, sends⟩
      · exact .inl owns
      · refine .inr ⟨name, path, client.request_call _ made, misplaced, sends, ?_⟩
        rintro rfl
        exact named member
  | halt fault => cases sent

/-- Only a new comment changes which comment is the newest. -/
theorem Call.of_newest_ok {comment newest : Value} {call : Call} {octets : List UInt8}
    (given : call.newest comment octets = .ok newest) : newest = comment ∨
      (∃ number text, call = .createComment number text) ∧
        (Json.ofOctets octets).bind (Value.member "id") = .ok newest := by
  have checked (given : (Client.checkQuery octets).map (fun _ => comment) = .ok newest) :
      newest = comment := by
    cases passed : Client.checkQuery octets with
    | error fault =>
        rw [passed] at given
        cases given
    | ok answer =>
        rw [passed] at given
        exact (Except.ok.inj given).symm
  cases call with
  | createComment number text => exact .inr ⟨⟨number, text, rfl⟩, given⟩
  | pin node => exact .inl (checked given)
  | unpin node => exact .inl (checked given)
  | _ => exact .inl (Except.ok.inj given).symm

/-- The newest comment keeps having a number. -/
theorem Work.numbered_of_perform {newest : Value} {steps : List Step}
    (numbers : server.NumbersComments)
    (performed : work.perform client server earlier (.int id) = (.ok newest, steps)) :
    ∃ number : Int, newest = .int number := by
  cases work with
  | ask call =>
      rcases client.ask_cases server earlier call with ⟨fault, asked⟩ | ⟨other, -, same, asked⟩
      · simp [perform, asked] at performed
      · cases answered : server earlier other with
        | unreachable => simp [perform, asked, answered, Client.outcomeOf] at performed
        | response status octets =>
            rw [answered, Client.outcomeOf, Client.accepted] at asked
            split at asked
            · simp [perform, asked] at performed
            · simp only [perform, asked, Run.andThen_ok, Prod.mk.injEq] at performed
              rcases Call.of_newest_ok performed.1 with kept | ⟨creates, given⟩
              · exact ⟨id, kept⟩
              · exact numbers earlier other status octets newest (same ▸ creates) answered given
  | react name =>
      rcases asked : client.ask server earlier (.addReaction (.int id) name) with
        ⟨fault | octets, own⟩
      · simp [perform, asked] at performed
      · simp only [perform, asked, Run.andThen_ok, Prod.mk.injEq] at performed
        exact ⟨id, (Except.ok.inj performed.1).symm⟩
  | removeEach number names =>
      rw [perform] at performed
      split at performed
      · cases performed
      · exact ⟨id, (Except.ok.inj (Prod.mk.inj performed).1).symm⟩
  | halt fault => cases performed

/-- The requests of admitted tasks go where they may. -/
theorem reaches_of_execute (plain : client.IsPlain) (numbered : target.number = .int number)
    (numbers : server.NumbersComments) (admitted : target.AdmitsAll tasks)
    (sent : request ∈ requestsSent (Task.execute client server earlier (.int id) tasks).2) :
    target.Reaches client number request := by
  induction tasks generalizing earlier id with
  | nil => simp [Task.execute] at sent
  | cons task tasks ih =>
      have others : target.AdmitsAll tasks := fun other member => admitted other (by simp [member])
      have own : request ∈ requestsSent (task.work.perform client server earlier (.int id)).2 →
          target.Reaches client number request :=
        Work.reaches_of_perform plain numbered (admitted task (by simp))
      rw [Task.execute, Task.perform] at sent
      rcases performed : task.work.perform client server earlier (.int id) with
        ⟨fault | newest, steps⟩
      · rw [performed] at sent own
        exact own sent
      · obtain ⟨next, rfl⟩ := Work.numbered_of_perform numbers performed
        rw [performed] at own
        simp only [performed, Run.andThen_ok, requestsSent_append, List.mem_append] at sent
        rcases sent with (first | recorded) | later
        · exact own first
        · cases effect : task.effect <;> simp [effect] at recorded
        · exact ih others later

end Reaching

/-- Whatever a command and its arguments say and whatever the server replies, every request of
an invocation goes to an endpoint for its issue. The exceptions are the removals of labels
whose name is no segment, and these arrive at the place in front of it. -/
theorem Invocation.reaches_own (invocation : Invocation) (actions : ActionSet) (client : Client)
    (server : Server) (earlier : List Request) (number : Int) (plain : client.IsPlain)
    (numbered : invocation.target.number = .int number) (numbers : server.NumbersComments) :
    ∀ request ∈ requestsSent ((invocation.apply client actions).run server earlier).2,
      invocation.target.Reaches client number request := by
  intro request sent
  rcases Prod.mk.inj (invocation.follows_plan actions (.int 0) server earlier) with ⟨-, sameSteps⟩
  rw [← requestsSent_unsaid, sameSteps] at sent
  exact reaches_of_execute plain numbered numbers (invocation.admitsAll_plan actions) sent

/-- A command that removes a label from an issue. -/
def unlabelling (name : String) : Invocation :=
  { greeting with command := ⟨"unlabel", [name]⟩ }

/-- An action set that greets and removes the label that a command names. -/
def farewell : ActionSet :=
  { comments := ["Bye"], reactions := ["eyes"], labels := ["-\x7b\x7bargs.0\x7d\x7d"] }

theorem isPlainName_of_letters {name : List Char}
    (letters : name.all isAsciiAlphanumeric = true) : IsPlainName name where
  chars c member := .inl (List.all_eq_true.mp letters c member)
  notDot := by
    rintro rfl
    cases letters
  notDots := by
    rintro rfl
    cases letters

theorem isPlain_sampleClient : sampleClient.IsPlain where
  repository := ⟨"octo".toList, "garden".toList, rfl, isPlainName_of_letters (by decide),
    isPlainName_of_letters (by decide)⟩
  base := ⟨"https://api.github.com".toList, rfl⟩
  query := rfl

theorem numbersComments_acceptAll : acceptAll.NumbersComments := by
  have numbered : (match (Json.ofOctets (encodeUtf8 "\x7b\"id\": 9\x7d".toList)).bind
      (Value.member "id") with
    | .ok (.int _) => true
    | _ => false) = true := by decide +kernel
  intro earlier request status octets id _ answered given
  cases answered
  rw [given] at numbered
  cases id with
  | int number => exact ⟨number, rfl⟩
  | _ => cases numbered

/-- A label whose name holds a slash is removed under a single segment. -/
theorem Invocation.reaches_own_farewell :
    sampleClient.IsPlain ∧ (unlabelling "a/b").target.number = .int 7 ∧
      acceptAll.NumbersComments ∧
      (∀ request ∈ requestsSent
          (((unlabelling "a/b").apply sampleClient farewell).run acceptAll []).2,
        (unlabelling "a/b").target.Reaches sampleClient 7 request) ∧
      (requestsSent (((unlabelling "a/b").apply sampleClient farewell).run acceptAll []).2).map
          (fun request => (request.method, request.path)) =
        [(.delete, "/repos/octo/garden/issues/7/lock"),
          (.post, "/repos/octo/garden/issues/7/comments"),
          (.post, "/repos/octo/garden/issues/comments/9/reactions"),
          (.put, "/repos/octo/garden/issues/7/lock"),
          (.delete, "/repos/octo/garden/issues/7/labels/a%2Fb")] :=
  ⟨isPlain_sampleClient, rfl, numbersComments_acceptAll,
    (unlabelling "a/b").reaches_own farewell sampleClient acceptAll [] 7 isPlain_sampleClient rfl
      numbersComments_acceptAll,
    by decide +kernel⟩

/-- A command can remove all labels, and it can send a removal to the issue itself. Neither of
these is an endpoint. -/
theorem unlabelling_dots :
    (requestsSent (((unlabelling ".").apply sampleClient
        { labels := farewell.labels }).run acceptAll []).2).map
          (fun request => (request.method, request.path)) =
        [(.delete, "/repos/octo/garden/issues/7/labels")] ∧
      (requestsSent (((unlabelling "..").apply sampleClient
        { labels := farewell.labels }).run acceptAll []).2).map
          (fun request => (request.method, request.path)) =
        [(.delete, "/repos/octo/garden/issues/7")] ∧
      ∀ path, Endpoint 7 .delete path → path ≠ "/issues/7/labels" ∧ path ≠ "/issues/7" := by
  refine ⟨by decide, by decide, ?_⟩
  intro path endpoint
  cases endpoint with
  | unlock => decide
  | removeAssignees => decide
  | @removeLabel segment single filled =>
      have longer (other : String) (short : other.toList.length ≤ 16)
          (same : "/issues/7/labels/" ++ String.ofList segment = other) : False := by
        have lengths := congrArg (fun text => text.toList.length) same
        simp at lengths
        omega
      exact ⟨longer _ (by decide), longer _ (by decide)⟩

end SlashBot
