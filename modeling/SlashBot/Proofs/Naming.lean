import SlashBot.Proofs.Octets
import SlashBot.Proofs.Reach

/-!
# Names in paths

A label is removed at a place whose last segment encodes its name. The segment is made of
unreserved characters and encoded octets, which the service reads back as the name, so two
names never share a place. Such a request is made for every name, however odd its characters
are, as long as the URL does not become too long.
-/

namespace SlashBot

namespace Text

/-! ## Percent decoding -/

/-- A digit of hexadecimal octets in upper case. -/
def isUpperHexDigit (c : Char) : Bool :=
  isAsciiDigit c || (65 ≤ c.toNat && c.toNat ≤ 70)

/-- A text of unreserved characters, and of octets as percent signs with two digits. -/
inductive IsPercentEncoded : (text : List Char) → Prop
  | nil : IsPercentEncoded []
  | plain {c : Char} {rest : List Char} (standing : isUnreserved c = true)
      (more : IsPercentEncoded rest) : IsPercentEncoded (c :: rest)
  | octet {high low : Char} {rest : List Char} (first : isUpperHexDigit high = true)
      (second : isUpperHexDigit low = true) (more : IsPercentEncoded rest) :
      IsPercentEncoded ('%' :: high :: low :: rest)

/-- The octets that a text stands for, where every percent sign starts an octet. -/
def percentOctets? : (text : List Char) → Option (List UInt8)
  | [] => some []
  | '%' :: high :: low :: rest =>
      (hexNumber? [high, low]).bind fun octet =>
        (percentOctets? rest).map (UInt8.ofNat octet :: ·)
  | c :: rest =>
      if c == '%' then none else (percentOctets? rest).map (String.utf8EncodeChar c ++ ·)

/-- The text that a percent-encoded text stands for, read as UTF-8. -/
def percentDecode? (text : List Char) : Option (List Char) :=
  (percentOctets? text).bind decodeUtf8?

variable {safe : Char → Bool} {text rest : List Char} {c : Char} {octets : List UInt8}

theorem hexNumber?_upperHexDigit {high low : Nat} (first : high < 16) (second : low < 16) :
    hexNumber? [upperHexDigit high, upperHexDigit low] = some (high * 16 + low) := by
  have every : ∀ high < 16, ∀ low < 16,
      hexNumber? [upperHexDigit high, upperHexDigit low] = some (high * 16 + low) := by decide
  exact every high first low second

theorem isUpperHexDigit_upperHexDigit {n : Nat} (small : n < 16) :
    isUpperHexDigit (upperHexDigit n) = true := by
  have every : ∀ n < 16, isUpperHexDigit (upperHexDigit n) = true := by decide
  exact every n small

theorem percentOctets?_percentOctet (octet : UInt8) (rest : List Char) :
    percentOctets? (percentOctet octet ++ rest) = (percentOctets? rest).map (octet :: ·) := by
  have high : octet.toNat / 16 < 16 := by
    have := octet.toNat_lt
    omega
  have low : octet.toNat % 16 < 16 := Nat.mod_lt _ (by decide)
  have whole : octet.toNat / 16 * 16 + octet.toNat % 16 = octet.toNat := by omega
  simp only [percentOctet, List.cons_append, List.nil_append, percentOctets?,
    hexNumber?_upperHexDigit high low, Option.bind_some, whole, UInt8.ofNat_toNat]

theorem percentOctets?_flatMap (octets : List UInt8) (rest : List Char) :
    percentOctets? (octets.flatMap percentOctet ++ rest) =
      (percentOctets? rest).map (octets ++ ·) := by
  induction octets with
  | nil => simp
  | cons octet octets ih =>
      rw [List.flatMap_cons, List.append_assoc, percentOctets?_percentOctet, ih, Option.map_map]
      rfl

theorem percentOctets?_plain (plain : c ≠ '%') :
    percentOctets? (c :: rest) = (percentOctets? rest).map (String.utf8EncodeChar c ++ ·) := by
  rw [percentOctets?]
  · simp [plain]
  · rintro high low more rfl
    exact absurd rfl plain

theorem not_isUnreserved_percent (standing : isUnreserved c = true) : c ≠ '%' := by
  rintro rfl
  revert standing
  decide

/-- What is encoded as a component stands for the octets of the text. -/
theorem percentOctets?_percentComponent (text : List Char) :
    percentOctets? (percentComponent text) = some (encodeUtf8 text) := by
  induction text with
  | nil => rfl
  | cons c text ih =>
      rw [percentComponent, percentEncode] at ih ⊢
      rw [List.flatMap_cons, encodeUtf8, List.flatMap_cons]
      cases standing : isUnreserved c with
      | true =>
          rw [if_pos rfl, List.singleton_append,
            percentOctets?_plain (not_isUnreserved_percent standing), ih]
          rfl
      | false =>
          simp only [Bool.false_eq_true, if_false]
          rw [percentOctets?_flatMap, ih]
          rfl

/-- A component is read back as the text that it encodes. -/
theorem percentDecode?_percentComponent (text : List Char) :
    percentDecode? (percentComponent text) = some text := by
  rw [percentDecode?, percentOctets?_percentComponent, Option.bind_some, decodeUtf8?_encodeUtf8]

theorem isPercentEncoded_flatMap (octets : List UInt8) (more : IsPercentEncoded rest) :
    IsPercentEncoded (octets.flatMap percentOctet ++ rest) := by
  induction octets with
  | nil => exact more
  | cons octet octets ih =>
      have high : octet.toNat / 16 < 16 := by
        have := octet.toNat_lt
        omega
      rw [List.flatMap_cons, List.append_assoc]
      exact .octet (isUpperHexDigit_upperHexDigit high)
        (isUpperHexDigit_upperHexDigit (Nat.mod_lt _ (by decide))) ih

theorem isPercentEncoded_percentComponent (text : List Char) :
    IsPercentEncoded (percentComponent text) := by
  induction text with
  | nil => exact .nil
  | cons c text ih =>
      rw [percentComponent, percentEncode] at ih ⊢
      rw [List.flatMap_cons]
      cases standing : isUnreserved c with
      | true => exact .plain standing ih
      | false => exact isPercentEncoded_flatMap _ ih

end Text

open Text Url

namespace Client

variable {client : Client} {call : Call} {request : Request} {path : String} {rest : List Char}
  {number : Int} {name : String}

/-! ## Requests for paths -/

theorem make_of_isAbsolute {base : Url} {path : List Char} {query : Option (List Char)}
    (absolute : base.isAbsolute = true) :
    make base.scheme base.authority path query =
      .ok ⟨base.scheme, base.authority, percentEncode isPathChar (withoutDots path),
        query.map (percentEncode isQueryChar)⟩ := by
  have schemed : base.scheme.isEmpty = false := by
    cases empty : base.scheme.isEmpty with
    | false => rfl
    | true => simp [isAbsolute, empty] at absolute
  simp [make, schemed]

/-- Where a request for a path in the repository goes, as it is sent. -/
def sentPath (client : Client) (path : String) : String :=
  String.ofList client.base.front ++ "repos/" ++ client.repository ++ path

/-- A call without a body for a settled path makes a request, unless the URL becomes too
long. -/
theorem IsPlain.request_eq (plain : client.IsPlain) (absolute : client.base.isAbsolute = true)
    (place : call.place = .repository path) (bodiless : call.body = none)
    (shape : path.toList = '/' :: rest) (settled : IsSettled rest) :
    client.request call = if (client.sentPath path).length > maxLength then .error .invalidUrl
      else .ok ⟨call, client.base.origin, client.sentPath path, client.token⟩ := by
  have body : IsSettled ("repos/".toList ++ client.repository.toList ++ '/' :: rest) :=
    IsSettled.append_cons_iff.mpr ⟨plain.isSettled, settled⟩
  have whole := IsSettled.cons_iff.mpr body
  have address : (client.address call.place).toList =
      '/' :: ("repos/".toList ++ client.repository.toList ++ '/' :: rest) := by
    rw [place, Client.address, String.toList_append, String.toList_append, shape]
    rfl
  have single : ("repos/".toList ++ client.repository.toList ++ '/' :: rest).head? ≠ some '/' := by
    simp
  have sent : (client.sentPath path).toList =
      client.base.front ++ ("repos/".toList ++ client.repository.toList ++ '/' :: rest) := by
    simp [sentPath, shape]
  have length := congrArg List.length sent
  rw [String.length_toList] at length
  obtain ⟨start, -, ending⟩ := plain.isBase.exists_front
  rw [Client.request, address, ofText_path_eq whole.chars single]
  by_cases long : ('/' :: ("repos/".toList ++ client.repository.toList ++ '/' :: rest)).length >
      maxLength
  · have longer : (client.sentPath path).length > maxLength := by
      rw [length, ending]
      simp only [List.length_append, List.length_cons] at long ⊢
      omega
    rw [if_pos long, if_pos longer]
    rfl
  · rw [if_neg long, whole.withoutDots_eq, percentEncode_eq_self whole.chars]
    simp only [bind, Except.bind]
    rw [plain.isBase.resolve_path_eq body single, ← length]
    by_cases longer : (client.sentPath path).length > maxLength
    · rw [if_pos longer, if_pos longer]
    · have joined := plain.isBase.isSettled_front_append body
      rw [if_neg longer, if_neg longer, make_of_isAbsolute absolute, joined.withoutDots_eq,
        percentEncode_eq_self joined.chars, ← sent]
      have filled : (client.sentPath path).toList.isEmpty = false := by
        rw [sent, ending]
        simp
      simp only [bodiless, pure, Except.pure, target, origin, filled, Option.map_none,
        Option.getD_none, Bool.false_eq_true, if_true, if_false, List.append_nil,
        String.ofList_toList]

theorem run_order_of_ok {server : Server} {earlier : List Request}
    (made : client.request call = .ok request) :
    (client.order call).run server earlier =
      ((outcomeOf call (server earlier request)).map fun _ => (),
        [.sent request (server earlier request)]) := by
  simp only [run_order, ask, made]
  cases outcomeOf call (server earlier request) <;> rfl

theorem run_order_of_error {server : Server} {earlier : List Request} {fault : Fault}
    (made : client.request call = .error fault) :
    (client.order call).run server earlier = (.error fault, []) := by
  simp only [run_order, ask, made, Run.andThen_error]

/-! ## Removing a label by its name -/

/-- The place of a label whose name is encoded in a segment. -/
def labelPath (number : Int) (segment : List Char) : String :=
  "/issues/" ++ toString number ++ "/labels/" ++ String.ofList segment

theorem length_labelPath (number : Int) (segment : List Char) :
    (labelPath number segment).length =
      "/issues/".length + (toString number).length + "/labels/".length + segment.length := by
  simp only [labelPath, String.length_append, String.length_ofList]

/-- The request to remove a label, whatever its name is but for the two dot segments. -/
theorem IsPlain.request_removeLabel (plain : client.IsPlain)
    (absolute : client.base.isAbsolute = true) (notDot : name ≠ ".") (notDots : name ≠ "..") :
    client.request (.removeLabel (.int number) name) =
      if (client.sentPath (labelPath number (percentComponent name.toList))).length > maxLength then
        .error .invalidUrl
      else .ok ⟨.removeLabel (.int number) name, client.base.origin,
        client.sentPath (labelPath number (percentComponent name.toList)), client.token⟩ := by
  have single : IsSegment (percentComponent name.toList) := by
    apply isSegment_percentComponent
    · exact fun same => notDot (String.toList_inj.mp same)
    · exact fun same => notDots (String.toList_inj.mp same)
  have settled := IsSettled.append_cons_iff.mpr ⟨isSettled_issue number,
    IsSettled.append_cons_iff.mpr ⟨isSegment_labels.isSettled, single.isSettled⟩⟩
  have place : Call.place (.removeLabel (.int number) name) =
      .repository (labelPath number (percentComponent name.toList)) := by
    simp [Call.place, Call.issuePath, labelPath, Value.display, Value.literal, String.append_assoc]
  apply plain.request_eq absolute place rfl _ settled
  simp [labelPath]

/-- The segment can be read off the path. -/
theorem sentPath_labelPath_inj {segment other : List Char}
    (same : client.sentPath (labelPath number segment) =
      client.sentPath (labelPath number other)) : segment = other := by
  have chars := congrArg String.toList same
  simpa [sentPath, labelPath] using chars

/-- Only one name is removed at the path of a name that is not empty. -/
theorem IsPlain.name_eq_of_path_eq {other : String} {first second : Request}
    (plain : client.IsPlain) (absolute : client.base.isAbsolute = true) (filled : name ≠ "")
    (notDot : name ≠ ".") (notDots : name ≠ "..")
    (made : client.request (.removeLabel (.int number) name) = .ok first)
    (otherMade : client.request (.removeLabel (.int number) other) = .ok second)
    (same : second.path = first.path) : other = name := by
  have segment : percentComponent name.toList ≠ [] :=
    fun none => filled (String.toList_inj.mp (percentEncode_eq_nil_iff.mp none))
  have path {name : String} {request : Request} (notDot : name ≠ ".") (notDots : name ≠ "..")
      (made : client.request (.removeLabel (.int number) name) = .ok request) :
      request.path = client.sentPath (labelPath number (percentComponent name.toList)) := by
    rw [plain.request_removeLabel absolute notDot notDots] at made
    split at made
    · cases made
    · cases made
      rfl
  rw [path notDot notDots made] at same
  -- The requests for the two dot segments have shorter paths.
  have longer (rest : String) (short : rest.length ≤ 7)
      (sent : client.SendsTo second ("/issues/" ++ toString number ++ rest)) : False := by
    have length := congrArg String.length (sent.2.symm.trans same)
    have positive := List.length_pos_iff.mpr segment
    simp only [sentPath, length_labelPath, String.length_append] at length
    have labels : "/labels/".length = 8 := rfl
    omega
  by_cases dot : other = "."
  · subst dot
    exact (longer "/labels" (by decide) (plain.sendsTo_dot otherMade)).elim
  by_cases dots : other = ".."
  · subst dots
    have sent := plain.sendsTo_dots otherMade
    rw [← String.append_empty (s := "/issues/" ++ toString number)] at sent
    exact (longer "" (by decide) sent).elim
  rw [path dot dots otherMade] at same
  have texts := percentDecode?_percentComponent other.toList
  rw [sentPath_labelPath_inj same, percentDecode?_percentComponent] at texts
  exact (String.toList_inj.mp (Option.some.inj texts)).symm

/-- A label is removed by one request, to a place whose last segment is an encoding from which
its name is read back, and no other name is removed there. If the path has more characters than
a URL may have, nothing is sent. -/
theorem removes_by_name (client : Client) (server : Server) (earlier : List Request) (number : Int)
    (name : String) (plain : client.IsPlain) (absolute : client.base.isAbsolute = true)
    (filled : name ≠ "") (notDot : name ≠ ".") (notDots : name ≠ "..") :
    ∃ segment, IsPercentEncoded segment ∧ segment ≠ [] ∧
      percentDecode? segment = some name.toList ∧
      (let path := client.sentPath (labelPath number segment)
      let run := (client.order (.removeLabel (.int number) name)).run server earlier
      (path.length ≤ maxLength → ∃ request, request.method = .delete ∧
          request.origin = client.base.origin ∧ request.path = path ∧ request.body = none ∧
          run.2 = [.sent request (server earlier request)]) ∧
        (maxLength < path.length → run = (.error .invalidUrl, []))) ∧
      ∀ other first second, client.request (.removeLabel (.int number) name) = .ok first →
        client.request (.removeLabel (.int number) other) = .ok second →
        second.path = first.path → other = name := by
  have made : client.request (.removeLabel (.int number) name) = _ :=
    plain.request_removeLabel absolute notDot notDots
  refine ⟨percentComponent name.toList, isPercentEncoded_percentComponent _, ?_,
    percentDecode?_percentComponent _, ⟨?_, ?_⟩, ?_⟩
  · exact fun none => filled (String.toList_inj.mp (percentEncode_eq_nil_iff.mp none))
  · intro short
    rw [if_neg (Nat.not_lt.mpr short)] at made
    refine ⟨⟨.removeLabel (.int number) name, client.base.origin, _, client.token⟩, rfl, rfl, rfl,
      rfl, ?_⟩
    exact congrArg Prod.snd (run_order_of_ok made)
  · intro long
    rw [if_pos long] at made
    exact run_order_of_error made
  · intro other first second firstMade secondMade same
    exact plain.name_eq_of_path_eq absolute filled notDot notDots firstMade secondMade same

/-- The segment of a name with a slash, a percent sign, a number sign, blanks and a letter beyond
ASCII. -/
theorem removes_by_name_odd :
    sampleClient.IsPlain ∧ sampleClient.base.isAbsolute = true ∧ "50%2F/é #?" ≠ "" ∧
      "50%2F/é #?" ≠ "." ∧ "50%2F/é #?" ≠ ".." ∧
      (∃ segment, IsPercentEncoded segment ∧ segment ≠ [] ∧
        percentDecode? segment = some "50%2F/é #?".toList ∧
        (let path := sampleClient.sentPath (labelPath 7 segment)
        let run := (sampleClient.order (.removeLabel (.int 7) "50%2F/é #?")).run acceptAll []
        (path.length ≤ maxLength → ∃ request, request.method = .delete ∧
            request.origin = sampleClient.base.origin ∧ request.path = path ∧
            request.body = none ∧ run.2 = [.sent request (acceptAll [] request)]) ∧
          (maxLength < path.length → run = (.error .invalidUrl, [])))) ∧
      (requestsSent
          ((sampleClient.order (.removeLabel (.int 7) "50%2F/é #?")).run acceptAll []).2).map
        Request.path =
          ["/repos/octo/garden/issues/7/labels/50%252F%2F%C3%A9%20%23%3F"] := by
  have absolute : sampleClient.base.isAbsolute = true := by decide
  obtain ⟨segment, encoded, filled, decoded, sent, -⟩ :=
    sampleClient.removes_by_name acceptAll [] 7 "50%2F/é #?" isPlain_sampleClient absolute
      (by decide) (by decide) (by decide)
  exact ⟨isPlain_sampleClient, absolute, by decide, by decide, by decide,
    ⟨segment, encoded, filled, decoded, sent⟩, by decide⟩

/-- A name of euro signs. -/
def euros (count : Nat) : String := String.ofList (List.replicate count '€')

theorem length_euros (count : Nat) : (euros count).length = count := by
  simp [euros]

/-- Each euro sign is encoded with nine characters. -/
theorem length_percentComponent_euros (count : Nat) :
    (percentComponent (euros count).toList).length = 9 * count := by
  have once : (percentComponent ['€']).length = 9 := by decide
  rw [percentComponent, percentEncode, List.flatMap_singleton] at once
  simp [percentComponent, percentEncode, euros, List.length_flatMap, once, Nat.mul_comm]

/-- A label with a long name is not removed at all. -/
theorem removes_nothing_of_euros :
    sampleClient.IsPlain ∧ euros 7282 ≠ "" ∧ euros 7282 ≠ "." ∧ euros 7282 ≠ ".." ∧
      (sampleClient.order (.removeLabel (.int 7) (euros 7282))).run acceptAll [] =
        (.error .invalidUrl, []) := by
  have other (name : String) (short : name.length < 7282) : euros 7282 ≠ name := by
    intro same
    rw [← same, length_euros] at short
    exact Nat.lt_irrefl _ short
  have long : (sampleClient.sentPath
      (labelPath 7 (percentComponent (euros 7282).toList))).length > maxLength := by
    have segment := length_percentComponent_euros 7282
    simp only [sentPath, length_labelPath, String.length_append, segment, maxLength]
    omega
  have made : sampleClient.request (.removeLabel (.int 7) (euros 7282)) = .error .invalidUrl := by
    rw [isPlain_sampleClient.request_removeLabel (by decide) (other _ (by decide))
      (other _ (by decide)), if_pos long]
  exact ⟨isPlain_sampleClient, other _ (by decide), other _ (by decide), other _ (by decide),
    run_order_of_error made⟩

end Client

end SlashBot
