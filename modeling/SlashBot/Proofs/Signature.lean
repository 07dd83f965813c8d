import SlashBot.Proofs.Client
import SlashBot.Webhook.Delivery

/-!
# Signed deliveries

With a secret, a body is accepted with exactly one signature: the marker, followed by the
authentication code of the body. Everything else is turned away before the body is read. The
secret has no further influence: an accepted delivery is handled by the same job as without a
secret.
-/

namespace SlashBot

open SlashBot.Digest
open SlashBot.Text

/-! ## Signatures -/

/-- The lower-case hexadecimal digits are ASCII. -/
theorem Text.ascii_lowerHexDigit {n : Nat} (small : n < 16) : (lowerHexDigit n).toNat < 128 := by
  have every : ∀ m < 16, (lowerHexDigit m).toNat < 128 := by decide
  exact every n small

theorem Text.ascii_lowerHex {width n : Nat} {c : Char} (member : c ∈ lowerHex width n) :
    c.toNat < 128 := by
  induction width generalizing n with
  | zero => cases member
  | succ width ih =>
      rcases List.mem_append.mp member with leading | last
      · exact ih leading
      · rw [List.mem_singleton.mp last]
        exact ascii_lowerHexDigit (Nat.mod_lt n (by decide))

theorem Digest.ascii_hexText {octets : List UInt8} {c : Char}
    (member : c ∈ (hexText octets).toList) : c.toNat < 128 := by
  rw [hexText, String.toList_ofList] at member
  rcases List.mem_flatMap.mp member with ⟨octet, -, inOctet⟩
  exact ascii_lowerHex inOctet

namespace Signature

/-- The one signature with which a body is accepted. -/
def expected (secret : String) (body : List UInt8) : String :=
  "sha256=" ++ hexText (hmacSha256 (encodeUtf8 secret.toList) body)

theorem toList_expected (secret : String) (body : List UInt8) :
    (expected secret body).toList = marker ++ code secret body := by
  rw [expected, String.toList_append]
  rfl

/-- A text with the marker in front is the expected signature if the code follows. -/
theorem eq_expected_iff {secret given : String} {body : List UInt8}
    (marked : marker <+: given.toList) :
    given = expected secret body ↔ given.toList.drop marker.length = code secret body := by
  rcases marked with ⟨rest, split⟩
  rw [← String.toList_inj, toList_expected, ← split, List.append_cancel_left_eq,
    List.drop_left]

/-- With a secret, a body is accepted with its signature and with no other. -/
theorem accepts_iff {secret : String} (set : secret ≠ "") (body : List UInt8)
    (signature : Option String) :
    accepts (some secret) body signature = .ok true ↔
      signature = some (expected secret body) := by
  have kept : (some secret).filter (· != "") = some secret := by simp [set]
  simp only [accepts, kept]
  cases signature with
  | none =>
      have unmarked : marker.isPrefixOf ((none : Option String).getD "").toList = false := by decide
      rw [unmarked]
      exact ⟨nofun, nofun⟩
  | some given =>
      rw [Option.getD_some, Option.some.injEq]
      by_cases marked : marker <+: given.toList
      · rw [eq_expected_iff marked, List.isPrefixOf_iff_prefix.mpr marked]
        simp only [Bool.not_true, Bool.false_eq_true, if_false]
        split
        · -- The code is ASCII, so a text that cannot be compared is not the code.
          rename_i foreign
          rcases List.any_eq_true.mp foreign with ⟨c, member, beyond⟩
          have differs : given.toList.drop marker.length ≠ code secret body := by
            intro same
            rw [same] at member
            have ascii := ascii_hexText member
            rw [decide_eq_true_eq] at beyond
            omega
          simp [differs]
        · simp
      · have unmarked : marker.isPrefixOf given.toList = false := by
          rw [Bool.eq_false_iff]
          exact fun is => marked (List.isPrefixOf_iff_prefix.mp is)
        have differs : given ≠ expected secret body := by
          rintro rfl
          rw [toList_expected] at marked
          exact marked (List.prefix_append ..)
        simp [unmarked, differs]

example : hexText (hmacSha256 (encodeUtf8 "key".toList)
      (encodeUtf8 "The quick brown fox jumps over the lazy dog".toList)) =
    "f7bc83f430538424b13298e6aa6fb143ef4d59a14946175997479dbc2d1a3cd8" := by
  decide +kernel

end Signature

/-! ## Environments -/

/-- Two environments agree on every variable but one. -/
def Environment.AgreeExcept (name : String) (first second : Environment) : Prop :=
  ∀ other ≠ name, first.get? other = second.get? other

/-- The variable that holds the secret. -/
def Signature.secretName : String := "GITHUB_WEBHOOK_SECRET"

namespace Environment.AgreeExcept

variable {guarded free : Environment} (agree : guarded.AgreeExcept Signature.secretName free)

include agree

theorem trigger_eq : guarded.trigger = free.trigger := by
  rw [Environment.trigger, agree "TRIGGER_CHAR" (by decide)]
  rfl

theorem ofEnvironment_eq (repository : String) (given : Option String) :
    Client.ofEnvironment guarded repository given = Client.ofEnvironment free repository given := by
  simp only [Client.ofEnvironment, Client.tokenOf?, Environment.nonempty?,
    agree "GITHUB_API_URL" (by decide), agree "INPUT_GITHUB_TOKEN" (by decide),
    agree "GITHUB_TOKEN" (by decide), agree "GITHUB_GRAPHQL_URL" (by decide)]

/-- Work in the background does not depend on the secret. -/
theorem work_eq (queued : Queued) (draw : Int) :
    queued.work guarded draw = queued.work free draw := by
  simp only [Queued.work, Queued.carryOut, Queued.settings, agree.ofEnvironment_eq,
    agree.trigger_eq, agree "CONFIG_FILE" (by decide)]

theorem console_eq (clock : String) :
    Console.ofEnvironment guarded clock = Console.ofEnvironment free clock := by
  simp only [Console.ofEnvironment, agree "RUNNER_DEBUG" (by decide), agree "DEBUG" (by decide),
    agree "TERM" (by decide)]

end Environment.AgreeExcept

/-! ## Deliveries -/

namespace Delivery

/-- The signature that a delivery brings. -/
def signature? (delivery : Delivery) : Option String :=
  delivery.header? "x-hub-signature-256"

/-- The delivery is posted to the endpoint for events. -/
structure IsPosted (delivery : Delivery) : Prop where
  method : delivery.method = "POST"
  path : delivery.path = "/webhook/github"

variable {delivery : Delivery} {environment guarded free : Environment}

/-- A posted delivery is checked, and a fault of the check is an answer too. -/
theorem route_of_isPosted (posted : delivery.IsPosted) :
    delivery.route environment = (delivery.check environment).attempt.bind fun
      | .ok checked => .done checked
      | .error _ => .done (.failure, none) := by
  rw [route, posted.path, posted.method]
  rfl

/-- A delivery whose signature is not accepted is answered with a fault, and nothing follows. -/
theorem route_of_not_accepted (posted : delivery.IsPosted)
    (rejected : Signature.accepts (environment.get? Signature.secretName) delivery.body
      delivery.signature? ≠ .ok true) :
    delivery.route environment =
        .say (.error "[WH] Signature verification failed")
          (.done (.refusal 401 "Invalid signature", none)) ∨
      delivery.route environment = .done (.failure, none) := by
  rw [route_of_isPosted posted, check]
  rw [signature?, Signature.secretName] at rejected
  cases accepted : Signature.accepts (environment.get? "GITHUB_WEBHOOK_SECRET") delivery.body
      (delivery.header? "x-hub-signature-256") with
  | error fault => exact .inr rfl
  | ok answer =>
      cases answer with
      | false => exact .inl rfl
      | true => exact absurd accepted rejected

/-- Two environments that both accept the signature and agree otherwise check alike. -/
theorem check_eq (agree : guarded.AgreeExcept Signature.secretName free)
    (accepted : Signature.accepts (guarded.get? Signature.secretName) delivery.body
      delivery.signature? = .ok true)
    (admitted : Signature.accepts (free.get? Signature.secretName) delivery.body
      delivery.signature? = .ok true) :
    delivery.check guarded = delivery.check free := by
  rw [signature?, Signature.secretName] at accepted admitted
  simp only [check, accepted, admitted, agree.trigger_eq]

theorem handle_eq (agree : guarded.AgreeExcept Signature.secretName free)
    (checked : delivery.check guarded = delivery.check free) (draw : Int) :
    delivery.handle guarded draw = delivery.handle free draw := by
  simp only [handle, route, checked, agree.work_eq]

/-- What a secret does to the handling of a delivery, compared with an environment that has
none. -/
structure GuardedBy (delivery : Delivery) (secret : String) (guarded free : Environment)
    (draw : Int) : Prop where
  /-- A body is accepted with its signature, and with no other or without one. -/
  accepts : ∀ signature,
    Signature.accepts (guarded.get? Signature.secretName) delivery.body signature = .ok true ↔
      signature = some (Signature.expected secret delivery.body)
  /-- Without the signature nothing is queued, nothing is sent, and the answer tells of no
  success. -/
  refuses : delivery.signature? ≠ some (Signature.expected secret delivery.body) →
    ∀ server earlier, ∃ answer,
      ((delivery.route guarded).run server earlier).1 = .ok (answer, none) ∧
      ((delivery.handle guarded draw).run server earlier).1 = .ok answer ∧
      ¬ (200 ≤ answer.status ∧ answer.status ≤ 299) ∧
      requestsSent ((delivery.handle guarded draw).run server earlier).2 = []
  /-- With the signature, the answer, the requests and the log are those without a secret. -/
  admits : delivery.signature? = some (Signature.expected secret delivery.body) →
    ∀ server earlier,
      (delivery.handle guarded draw).run server earlier =
        (delivery.handle free draw).run server earlier ∧
      ∀ clock, Console.ofEnvironment guarded clock = Console.ofEnvironment free clock

/-- A delivery is handled under a secret if it brings the signature of its body, and then as if
there were no secret. -/
theorem handle_guardedBy (delivery : Delivery) (secret : String) (guarded free : Environment)
    (draw : Int) (posted : delivery.IsPosted) (set : secret ≠ "")
    (guard : guarded.get? Signature.secretName = some secret)
    (unset : free.nonempty? Signature.secretName = none)
    (agree : guarded.AgreeExcept Signature.secretName free) :
    delivery.GuardedBy secret guarded free draw := by
  have accepts (signature : Option String) :
      Signature.accepts (guarded.get? Signature.secretName) delivery.body signature = .ok true ↔
        signature = some (Signature.expected secret delivery.body) := by
    rw [guard]
    exact Signature.accepts_iff set delivery.body signature
  refine ⟨accepts, ?_, ?_⟩
  · intro foreign server earlier
    have rejected := mt (accepts delivery.signature?).mp foreign
    rcases route_of_not_accepted posted rejected with routed | routed
    · refine ⟨.refusal 401 "Invalid signature", ?_⟩
      rw [handle, routed]
      exact ⟨rfl, rfl, by decide, rfl⟩
    · refine ⟨.failure, ?_⟩
      rw [handle, routed]
      exact ⟨rfl, rfl, by decide, rfl⟩
  · intro signed server earlier
    have admitted : Signature.accepts (free.get? Signature.secretName) delivery.body
        delivery.signature? = .ok true := by
      rw [Environment.nonempty?] at unset
      rw [Signature.accepts, unset]
    rw [handle_eq agree (check_eq agree ((accepts _).mpr signed) admitted)]
    exact ⟨rfl, agree.console_eq⟩

/-- The payload of a comment that gives a command. -/
def greetingBody : List UInt8 :=
  encodeUtf8 ("\x7b\"action\":\"created\",\"repository\":\x7b\"full_name\":\"octo/garden\"\x7d," ++
    "\"comment\":\x7b\"body\":\"/greet\"\x7d\x7d").toList

/-- The delivery of this comment, signed with a secret. -/
def signedGreeting : Delivery :=
  { method := "POST"
    path := "/webhook/github"
    headers := [("X-GitHub-Event", "issue_comment"),
      ("X-Hub-Signature-256", Signature.expected "key" greetingBody)]
    body := greetingBody }

/-- The signed comment is queued under the secret. -/
theorem handle_guardedBy_greeting :
    signedGreeting.signature? = some (Signature.expected "key" signedGreeting.body) ∧
      signedGreeting.GuardedBy "key" [("GITHUB_WEBHOOK_SECRET", "key"), ("GITHUB_TOKEN", "t")]
        [("GITHUB_TOKEN", "t")] 0 ∧
      (((signedGreeting.route [("GITHUB_TOKEN", "t")]).run acceptAll []).1.toOption.bind
        Prod.snd).map Queued.repository = some "octo/garden" := by
  have agree : Environment.AgreeExcept Signature.secretName
      [("GITHUB_WEBHOOK_SECRET", "key"), ("GITHUB_TOKEN", "t")] [("GITHUB_TOKEN", "t")] := by
    intro other differs
    have unequal : (other == "GITHUB_WEBHOOK_SECRET") = false := by
      rw [beq_eq_false_iff_ne]
      exact differs
    rw [Environment.get?, List.lookup_cons, unequal]
    rfl
  refine ⟨rfl, ?_, by decide +kernel⟩
  exact handle_guardedBy signedGreeting "key" _ _ 0 ⟨rfl, rfl⟩ (by decide) rfl rfl agree

end Delivery

end SlashBot
