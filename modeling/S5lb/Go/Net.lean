import S5lb.Go.Strings

namespace Go.Net

def addrError (addr why : String) : String :=
  if addr = "" then why else "address " ++ addr ++ ": " ++ why

def lastIndex (c : Char) (s : List Char) : Option Nat :=
  (s.reverse.idxOf? c).map fun k => s.length - 1 - k

def splitTail (hostport : String) (host : List Char) (i j k : Nat) :
    Except String (String × String) :=
  let s := hostport.toList
  if (s.drop j).contains '[' then .error (addrError hostport "unexpected '[' in address")
  else if (s.drop k).contains ']' then .error (addrError hostport "unexpected ']' in address")
  else .ok (String.ofList host, String.ofList (s.drop (i + 1)))

def splitHostPort (hostport : String) : Except String (String × String) :=
  let s := hostport.toList
  let missingPort := addrError hostport "missing port in address"
  let tooManyColons := addrError hostport "too many colons in address"
  match lastIndex ':' s with
  | none => .error missingPort
  | some i =>
      if s.head? = some '[' then
        match s.idxOf? ']' with
        | none => .error (addrError hostport "missing ']' in address")
        | some stop =>
            if stop + 1 = s.length then .error missingPort
            else if stop + 1 = i then
              splitTail hostport ((s.take stop).drop 1) i 1 (stop + 1)
            else if s[stop + 1]? = some ':' then .error tooManyColons
            else .error missingPort
      else if (s.take i).contains ':' then .error tooManyColons
      else splitTail hostport (s.take i) i 0 0

theorem lastIndex_cut {c : Char} {after : List Char} (before : List Char) (free : c ∉ after) :
    lastIndex c (before ++ c :: after) = some before.length := by
  have cut := idxOf?_cut (mt List.mem_reverse.1 free) before.reverse
  rw [lastIndex, show (before ++ c :: after).reverse = after.reverse ++ c :: before.reverse by simp, cut]
  simp only [Option.map_some, List.length_append, List.length_cons, List.length_reverse,
    Option.some.injEq]
  omega

theorem splitTail_eq {hostport : String} {host port before : List Char} {j k : Nat}
    (text : hostport.toList = before ++ ':' :: port) (opening : '[' ∉ hostport.toList.drop j)
    (closing : ']' ∉ hostport.toList.drop k) :
    splitTail hostport host before.length j k = .ok (String.ofList host, String.ofList port) := by
  rw [text] at opening closing
  simp [splitTail, opening, closing, text]

variable {host port : List Char}

theorem splitHostPort_plain (colon : ':' ∉ host) (brackets : '[' ∉ host ∧ ']' ∉ host)
    (port_colon : ':' ∉ port) (port_brackets : '[' ∉ port ∧ ']' ∉ port) :
    splitHostPort (String.ofList (host ++ ':' :: port)) =
      .ok (String.ofList host, String.ofList port) := by
  have text : (String.ofList (host ++ ':' :: port)).toList = host ++ ':' :: port :=
    String.toList_ofList
  have opening : '[' ∉ host ++ ':' :: port := by simp [brackets, port_brackets]
  have closing : ']' ∉ host ++ ':' :: port := by simp [brackets, port_brackets]
  have head : (host ++ ':' :: port).head? ≠ some '[' := fun first =>
    opening (List.mem_of_head? first)
  unfold splitHostPort
  simp only [text, lastIndex_cut host port_colon]
  rw [if_neg head, List.take_left, if_neg (by simpa using colon)]
  exact splitTail_eq text (by simpa [text] using opening) (by simpa [text] using closing)

theorem splitHostPort_bracketed (brackets : '[' ∉ host ∧ ']' ∉ host) (port_colon : ':' ∉ port)
    (port_brackets : '[' ∉ port ∧ ']' ∉ port) :
    splitHostPort (String.ofList ('[' :: host ++ ']' :: ':' :: port)) =
      .ok (String.ofList host, String.ofList port) := by
  have text : (String.ofList ('[' :: host ++ ']' :: ':' :: port)).toList =
      ('[' :: host ++ [']']) ++ ':' :: port := by
    simp
  have stop : ((('[' :: host) ++ [']']) ++ ':' :: port).idxOf? ']' = some (host.length + 1) := by
    rw [List.append_assoc]
    exact idxOf?_cut (by simp [brackets.2]) _
  unfold splitHostPort
  simp only [text, lastIndex_cut ('[' :: host ++ [']']) port_colon, stop]
  rw [if_pos (by simp), if_neg (by simp), if_pos (by simp),
    show ((('[' :: host ++ [']']) ++ ':' :: port).take (host.length + 1)).drop 1 = host by simp]
  apply splitTail_eq text
  · rw [text]
    simp [brackets, port_brackets]
  · rw [text, show (('[' :: host ++ [']']) ++ ':' :: port).drop (host.length + 1 + 1) = ':' :: port by
      simp]
    simp [port_brackets]

def decimalOctet (field : List Char) : Option UInt8 :=
  if field.isEmpty || !field.all Char.isDigit then none
  else if field.head? = some '0' ∧ field.length ≠ 1 then none
  else
    let value := field.foldl (fun acc c => 10 * acc + (c.toNat - 48)) 0
    if value ≤ 255 then some (UInt8.ofNat value) else none

def parseIPv4 (s : List Char) : Option (List UInt8) :=
  match s.splitOn '.' with
  | [a, b, c, d] => [a, b, c, d].mapM decimalOctet
  | _ => none

def hexValue (c : Char) : Option Nat :=
  if c.isDigit then some (c.toNat - 48)
  else if 'a' ≤ c ∧ c ≤ 'f' then some (c.toNat - 87)
  else if 'A' ≤ c ∧ c ≤ 'F' then some (c.toNat - 55)
  else none

def parseGroups : Nat → List Char → List UInt8 → Option Nat →
    Option (List Char × List UInt8 × Option Nat)
  | 0, s, ip, ellipsis => some (s, ip, ellipsis)
  | fuel + 1, s, ip, ellipsis =>
      let digits := s.takeWhile fun c => (hexValue c).isSome
      let rest := s.drop digits.length
      if digits.isEmpty || 4 < digits.length then none
      else if rest.head? = some '.' then
        if ellipsis.isNone && ip.length != 12 then none
        else if 16 < ip.length + 4 then none
        else (parseIPv4 s).map fun v4 => ([], ip ++ v4, ellipsis)
      else
        let acc := digits.foldl (fun acc c => 16 * acc + (hexValue c).getD 0) 0
        let ip := ip ++ [UInt8.ofNat (acc / 256), UInt8.ofNat (acc % 256)]
        match rest with
        | [] => some ([], ip, ellipsis)
        | ':' :: ':' :: more =>
            if ellipsis.isSome then none
            else if more.isEmpty then some ([], ip, some ip.length)
            else parseGroups fuel more ip (some ip.length)
        | ':' :: c :: more => parseGroups fuel (c :: more) ip ellipsis
        | _ => none

def parseIPv6 (s : List Char) : Option (List UInt8) :=
  let (s, ellipsis) := match s with
    | ':' :: ':' :: more => (more, some 0)
    | s => (s, none)
  if ellipsis.isSome && s.isEmpty then some (List.replicate 16 0)
  else match parseGroups 8 s [] ellipsis with
    | some ([], ip, some cut) =>
        if ip.length < 16 then
          some (ip.take cut ++ List.replicate (16 - ip.length) 0 ++ ip.drop cut)
        else none
    | some ([], ip, none) => if ip.length < 16 then none else some ip
    | _ => none

def parseIP (text : String) : Option (List UInt8) :=
  let s := text.toList
  match s.find? fun c => c == '.' || c == ':' || c == '%' with
  | some '.' => (parseIPv4 s).map fun v4 => List.replicate 10 0 ++ [255, 255] ++ v4
  | some ':' => if s.contains '%' then none else parseIPv6 s
  | _ => none

def to4 (ip : List UInt8) : Option (List UInt8) :=
  if ip.length = 4 then some ip
  else if ip.length = 16 ∧ ip.take 12 = List.replicate 10 0 ++ [255, 255] then some (ip.drop 12)
  else none

def to16 (ip : List UInt8) : Option (List UInt8) :=
  if ip.length = 4 then some (List.replicate 10 0 ++ [255, 255] ++ ip)
  else if ip.length = 16 then some ip
  else none

def ipEqual (ip x : List UInt8) : Bool :=
  if ip.length = x.length then ip == x
  else if ip.length = 4 ∧ x.length = 16 then
    x.take 12 == List.replicate 10 0 ++ [255, 255] && ip == x.drop 12
  else if ip.length = 16 ∧ x.length = 4 then
    ip.take 12 == List.replicate 10 0 ++ [255, 255] && ip.drop 12 == x
  else false

def ipv4zero : List UInt8 := List.replicate 10 0 ++ [255, 255, 0, 0, 0, 0]

def ipv6zero : List UInt8 := List.replicate 16 0

def isUnspecified (ip : List UInt8) : Bool := ipEqual ip ipv4zero || ipEqual ip ipv6zero

def joinHostPort (host port : List UInt8) : List UInt8 :=
  if host.contains 58 then [91] ++ host ++ [93, 58] ++ port else host ++ [58] ++ port

theorem ipEqual_self (ip : List UInt8) : ipEqual ip ip = true := by simp [ipEqual]

theorem to4_length {ip v4 : List UInt8} (short : to4 ip = some v4) : v4.length = 4 := by
  unfold to4 at short
  split at short
  · cases short
    assumption
  · split at short
    · rename_i mapped
      cases short
      rw [List.length_drop, mapped.1]
    · cases short

theorem to16_length {ip v6 : List UInt8} (long : to16 ip = some v6) : v6.length = 16 := by
  unfold to16 at long
  split at long
  · rename_i four
    cases long
    rw [List.length_append, four]
    rfl
  · split at long
    · cases long
      assumption
    · cases long

theorem to4_equal {ip v4 : List UInt8} (short : to4 ip = some v4) : ipEqual v4 ip = true := by
  have length := to4_length short
  unfold to4 at short
  split at short
  · cases short
    exact ipEqual_self ip
  · split at short
    · rename_i mapped
      cases short
      simp [ipEqual, length, mapped]
    · cases short

def hexNat (n : Nat) : String := String.ofList (Nat.toDigits 16 n)

def groups : List UInt8 → List Nat
  | hi :: lo :: rest => (256 * hi.toNat + lo.toNat) :: groups rest
  | _ => []

def zeroRun (words : List Nat) : Option (Nat × Nat) :=
  (List.range words.length).foldl (fun best i =>
    let length := ((words.drop i).takeWhile (· == 0)).length
    let record := match best with
      | none => 0
      | some (start, stop) => stop - start
    if 2 ≤ length ∧ record < length then some (i, i + length) else best) none

def ipString (ip : List UInt8) : String :=
  let colons (words : List Nat) := ":".intercalate (words.map hexNat)
  match ip, to4 ip with
  | [], _ => "<nil>"
  | _, some v4 => ".".intercalate (v4.map fun b => toString b.toNat)
  | ip, none =>
      if ip.length ≠ 16 then
        "?" ++ String.join (ip.map fun b => hexNat (b.toNat / 16) ++ hexNat (b.toNat % 16))
      else match zeroRun (groups ip) with
        | none => colons (groups ip)
        | some (start, stop) => colons ((groups ip).take start) ++ "::" ++ colons ((groups ip).drop stop)

end Go.Net
