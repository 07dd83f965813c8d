import SlashBot.Proofs.Signature

/-!
# Rejected deliveries

A delivery without the right signature is turned away: the answer has the status 401, and the log
gets one line. This takes a signature that can be compared with the code of the body. Where a
character behind the marker is not ASCII, the comparison itself fails: the answer tells of a
failure of the bot, and the log gets no line at all.
-/

namespace SlashBot

open SlashBot.Text

/-! ## Signatures that can be compared -/

namespace Signature

/-- A signature with the marker in front has ASCII characters only. A signature without it is
never compared. -/
def IsComparable (signature : Option String) : Prop :=
  ∀ given, signature = some given → marker <+: given.toList → ∀ c ∈ given.toList, c.toNat < 128

variable {secret : String} {body : List UInt8} {signature : Option String}

/-- Comparing a signature gives an answer. -/
theorem exists_accepts (set : secret ≠ "") (comparable : IsComparable signature) :
    ∃ answer, accepts (some secret) body signature = .ok answer := by
  have kept : (some secret).filter (· != "") = some secret := by simp [set]
  simp only [accepts, kept]
  split
  · exact ⟨false, rfl⟩
  · rename_i marked
    rw [Bool.not_eq_true, Bool.not_eq_false', List.isPrefixOf_iff_prefix] at marked
    cases signature with
    | none =>
        have unmarked : ¬ marker <+: ((none : Option String).getD "").toList := by decide
        exact (unmarked marked).elim
    | some given =>
        have ascii : ((given.toList.drop marker.length).any fun c => c.toNat > 127) = false := by
          rw [List.any_eq_false]
          intro c member
          have small := comparable given rfl marked c (List.mem_of_mem_drop member)
          simp only [decide_eq_true_eq]
          omega
        rw [Option.getD_some, ascii]
        exact ⟨_, rfl⟩

/-- A signature that can be compared and is not the right one is refused. -/
theorem accepts_of_isComparable (set : secret ≠ "") (comparable : IsComparable signature)
    (foreign : signature ≠ some (expected secret body)) :
    accepts (some secret) body signature = .ok false := by
  have checked : ∃ answer, accepts (some secret) body signature = .ok answer :=
    exists_accepts set comparable
  rcases checked with ⟨answer, given⟩
  cases answer with
  | false => exact given
  | true => exact (foreign ((accepts_iff set body signature).mp given)).elim

/-- A signature that cannot be compared is a fault of the check. -/
theorem accepts_of_not_isComparable (set : secret ≠ "") (incomparable : ¬ IsComparable signature) :
    accepts (some secret) body signature = .error .wrongKind := by
  simp only [IsComparable, Classical.not_forall] at incomparable
  obtain ⟨given, rfl, marks, c, member, beyond⟩ := incomparable
  rcases marks with ⟨rest, split⟩
  have kept : (some secret).filter (· != "") = some secret := by simp [set]
  have marked : marker.isPrefixOf given.toList = true := by
    rw [List.isPrefixOf_iff_prefix, ← split]
    exact List.prefix_append ..
  have foreign : ((given.toList.drop marker.length).any fun c => c.toNat > 127) = true := by
    rw [← split, List.mem_append] at member
    have plain : marker.all (fun d => d.toNat < 128) = true := by decide
    have inRest : c ∈ rest := member.resolve_left fun inMarker =>
      beyond (of_decide_eq_true (List.all_eq_true.mp plain c inMarker))
    rw [← split, List.drop_left, List.any_eq_true]
    refine ⟨c, inRest, ?_⟩
    simp only [decide_eq_true_eq]
    omega
  simp only [accepts, kept, Option.getD_some, marked, foreign]
  rfl

end Signature

/-! ## Deliveries that are turned away -/

namespace Delivery

variable {delivery : Delivery} {environment : Environment}

/-- What is said when a signature is refused. -/
def refusalEntry : Entry := .error "[WH] Signature verification failed"

/-- A delivery whose signature is refused is answered after one entry of the log. -/
theorem route_of_refused (posted : delivery.IsPosted)
    (refused : Signature.accepts (environment.get? Signature.secretName) delivery.body
      delivery.signature? = .ok false) :
    delivery.route environment =
      .say refusalEntry (.done (.refusal 401 "Invalid signature", none)) := by
  rw [signature?, Signature.secretName] at refused
  rw [route_of_isPosted posted, check, refused]
  rfl

/-- A delivery whose signature cannot be checked is answered without an entry of the log. -/
theorem route_of_failed {fault : Fault} (posted : delivery.IsPosted)
    (failed : Signature.accepts (environment.get? Signature.secretName) delivery.body
      delivery.signature? = .error fault) :
    delivery.route environment = .done (.failure, none) := by
  rw [signature?, Signature.secretName] at failed
  rw [route_of_isPosted posted, check, failed]
  rfl

/-- What becomes of a delivery without the right signature. -/
structure TurnsAway (delivery : Delivery) (environment : Environment) (draw : Int)
    (server : Server) (earlier : List Request) : Prop where
  /-- If its signature can be compared, the answer says that it is invalid, and nothing else
  happens but an entry of the log. -/
  refuses : Signature.IsComparable delivery.signature? →
    (delivery.handle environment draw).run server earlier =
      (.ok (.refusal 401 "Invalid signature"), [.said refusalEntry])
  /-- The entry is shown as one line. -/
  logs : Signature.IsComparable delivery.signature? → ∀ clock,
    (Console.ofEnvironment environment clock).shown
        (entriesSaid ((delivery.handle environment draw).run server earlier).2) =
      ["[" ++ clock ++ "] ❌ [WH] Signature verification failed"]
  /-- If its signature cannot be compared, the answer tells of a failure, and nothing else
  happens. -/
  fails : ¬ Signature.IsComparable delivery.signature? →
    (delivery.handle environment draw).run server earlier = (.ok .failure, [])

/-- A delivery without the right signature is turned away, whatever it brings. -/
theorem handle_turnsAway (delivery : Delivery) (secret : String) (environment : Environment)
    (draw : Int) (posted : delivery.IsPosted) (set : secret ≠ "")
    (guard : environment.get? Signature.secretName = some secret)
    (foreign : delivery.signature? ≠ some (Signature.expected secret delivery.body))
    (server : Server) (earlier : List Request) :
    delivery.TurnsAway environment draw server earlier := by
  have refuses (comparable : Signature.IsComparable delivery.signature?) :
      (delivery.handle environment draw).run server earlier =
        (.ok (.refusal 401 "Invalid signature"), [.said refusalEntry]) := by
    have refused := Signature.accepts_of_isComparable set comparable foreign
    rw [← guard] at refused
    rw [handle, route_of_refused posted refused]
    rfl
  refine ⟨refuses, ?_, ?_⟩
  · intro comparable clock
    have shown : (Console.ofEnvironment environment clock).shown [refusalEntry] =
        ["[" ++ clock ++ "] " ++ "❌" ++ " " ++ "[WH] Signature verification failed"] := rfl
    rw [refuses comparable]
    simp only [entriesSaid, List.filterMap_cons, List.filterMap_nil, Step.entry?]
    rw [shown]
    simp [String.append_assoc]
  · intro incomparable
    have failed : Signature.accepts (some secret) delivery.body delivery.signature? =
        .error .wrongKind :=
      Signature.accepts_of_not_isComparable set incomparable
    rw [← guard] at failed
    rw [handle, route_of_failed posted failed]
    rfl

/-- An empty event, with a signature of its own choice. -/
def pretender (signature : String) : Delivery :=
  { method := "POST"
    path := "/webhook/github"
    headers := [("X-Hub-Signature-256", signature)]
    body := encodeUtf8 "\x7b\x7d".toList }

/-- A signature that is too short is refused with one line of the log. -/
theorem handle_turnsAway_pretender :
    let delivery := pretender "sha256=00"
    let environment : Environment := [("GITHUB_WEBHOOK_SECRET", "key")]
    delivery.IsPosted ∧ "key" ≠ "" ∧ environment.get? Signature.secretName = some "key" ∧
      delivery.signature? ≠ some (Signature.expected "key" delivery.body) ∧
      delivery.TurnsAway environment 0 acceptAll [] ∧
      ((delivery.handle environment 0).run acceptAll []).1.toOption.map Answer.status =
        some 401 := by
  have posted : (pretender "sha256=00").IsPosted := ⟨rfl, rfl⟩
  have foreign : (pretender "sha256=00").signature? ≠
      some (Signature.expected "key" (pretender "sha256=00").body) := by decide +kernel
  exact ⟨posted, by decide, rfl, foreign,
    handle_turnsAway _ "key" _ 0 posted (by decide) rfl foreign acceptAll [], by decide +kernel⟩

/-- A signature with an accent in it is not refused: the handling of the delivery fails. -/
theorem handle_accentedSignature :
    let delivery := pretender "sha256=é"
    let environment : Environment := [("GITHUB_WEBHOOK_SECRET", "key")]
    delivery.IsPosted ∧
      delivery.signature? ≠ some (Signature.expected "key" delivery.body) ∧
      (delivery.handle environment 0).run acceptAll [] = (.ok .failure, []) ∧
      Answer.failure.status = 500 :=
  ⟨⟨rfl, rfl⟩, by decide +kernel, rfl, rfl⟩

end Delivery

end SlashBot
