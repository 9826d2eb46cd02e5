import MessageRelay.Permissions.Readers
import MessageRelay.Send.Live

/-! A recipient's fee from the request that sets it, through f64 and i32, to the places that show it: the status of
`get` and `quote`, and the blocked recipients and totals of `quote`. -/

namespace MessageRelay.Permissions
open MessageRelay.Library MessageRelay.Session MessageRelay.Send

def minI32 : Int := -2147483648

def maxI32 : Int := 2147483647

/-- An integral f64 `as i32`. -/
def saturated (n : Int) : Int := max minI32 (min n maxI32)

/-- An i32 sum, in a build without overflow checks. -/
def wrapped (n : Int) : Int := (n - minI32) % 4294967296 + minI32

/-- The f64 nearest to a natural number, a tie going to the even one. -/
def nearestF64 (n : Nat) : Nat :=
  if n < 2 ^ 53 then n
  else
    let unit := 2 ^ (n.log2 - 52)
    let up := unit < 2 * (n % unit) || (unit = 2 * (n % unit) && n / unit % 2 = 1)
    (if up then n / unit + 1 else n / unit) * unit

/-- A JSON number: an integer, or one written with a fraction or an exponent, as the f64 it is read as. -/
inductive Number where
  | integer (n : Int)
  | decimal (value : Rat)

/-- The number as f64. One out of its range is no JSON number to the parser. -/
def Number.asF64 : Number → Option Rat
  | .integer n =>
    if nearestF64 n.natAbs < 2 ^ 1024 then some ((n.sign * nearestF64 n.natAbs : Int) : Rat) else none
  | .decimal value => some value

structure PermissionSet where
  sender : Option String
  messageBox : String
  fee : Int
  deriving DecidableEq, Repr

def invalidMessageBox : Answer := errorAnswer "ERR_INVALID_MESSAGE_BOX" "messageBox must be a non-empty string." 400

def feeToStatus (fee : Int) : String :=
  if fee = -1 then "blocked" else if fee = 0 then "always_allow" else "payment_required"

/-- A permission as `get` shows it, and as `list` does, without its times. -/
structure ShownPermission where
  sender : Option String
  messageBox : String
  recipientFee : Int
  status : String
  deriving DecidableEq, Repr

structure ListedPermission where
  sender : Option String
  messageBox : String
  recipientFee : Int
  deriving DecidableEq, Repr

def formatPermission (row : PermissionRow) : ShownPermission :=
  let fee := saturated row.recipientFee
  ⟨row.sender, row.messageBox, fee, feeToStatus fee⟩

def formatListed (row : PermissionRow) : ListedPermission := ⟨row.sender, row.messageBox, saturated row.recipientFee⟩

structure RecipientQuote where
  recipient : String
  messageBox : String
  deliveryFee : Int
  recipientFee : Int
  status : String
  deriving DecidableEq, Repr

structure Quotes where
  quotesByRecipient : List RecipientQuote
  blockedRecipients : List String
  totalRecipientFees : Int
  deriving DecidableEq, Repr

/-- One recipient's rows each. -/
abbrev Tables := String → List PermissionRow

/-- The recipients of a quote in turn. -/
def quoteRecipients (sender messageBox : String) (deliveryFee : Int) : List String → Quotes → Tables → Quotes × Tables
  | [], quotes, tables => (quotes, tables)
  | recipient :: rest, quotes, tables =>
    let (fee, rows) := getRecipientFee (tables recipient) sender messageBox
    let blocked := if fee = -1 then quotes.blockedRecipients ++ [recipient] else quotes.blockedRecipients
    let total := if fee = -1 then quotes.totalRecipientFees
      else if 0 < fee then wrapped (quotes.totalRecipientFees + fee) else quotes.totalRecipientFees
    quoteRecipients sender messageBox deliveryFee rest
      ⟨quotes.quotesByRecipient ++ [⟨recipient, messageBox, deliveryFee, fee, feeToStatus fee⟩], blocked, total⟩
      (Function.update tables recipient rows)

/-- A quote for one recipient has the older shape. -/
inductive Quote where
  | single (deliveryFee recipientFee : Int)
  | multi (quotes : Quotes) (deliveryFees totalForPayable : Int)
  deriving DecidableEq, Repr

def missingParameters : Answer :=
  errorAnswer "ERR_MISSING_PARAMETERS" "recipient and messageBox parameters are required." 400

def invalidIndices (recipients : List String) : List Nat :=
  recipients.zipIdx.filterMap (fun (r, i) => if isValidPubkey r then none else some i)

def handleQuote (sender : String) (messageBox : Option String) (recipients : List String) (deliveryFee : Int)
    (tables : Tables) : Except Answer Quote × Tables :=
  match messageBox with
  | none => (.error missingParameters, tables)
  | some messageBox =>
    if messageBox = "" ∨ recipients = [] then (.error missingParameters, tables)
    else if invalidIndices recipients ≠ [] then
      (.error (errorAnswer "ERR_INVALID_PUBLIC_KEY" ("Invalid recipient public key at index(es): " ++
        String.intercalate ", " ((invalidIndices recipients).map toString) ++ ".") 400), tables)
    else
      match recipients with
      | [recipient] =>
        let (fee, rows) := getRecipientFee (tables recipient) sender messageBox
        (.ok (.single deliveryFee fee), Function.update tables recipient rows)
      | _ =>
        let (quotes, tables) := quoteRecipients sender messageBox deliveryFee recipients ⟨[], [], 0⟩ tables
        let deliveryFees := wrapped (deliveryFee * recipients.length)
        (.ok (.multi quotes deliveryFees (wrapped (deliveryFees + quotes.totalRecipientFees))), tables)

/-! The class a fee is in, and what it is for the places to agree on it. -/

inductive FeeClass where
  | blocked
  | free
  | paymentRequired
  deriving DecidableEq, Repr

def FeeClass.status : FeeClass → String
  | .blocked => "blocked"
  | .free => "always_allow"
  | .paymentRequired => "payment_required"

/-- A quote puts the recipient in the class: its own entry, the blocked list and its part of the total. -/
structure QuotedAs (k : FeeClass) (n : Int) (sender messageBox : String) (deliveryFee : Int) (recipients : List String)
    (tables : Tables) (recipient : String) (quotes : Quotes) : Prop where
  entry : ∀ q ∈ quotes.quotesByRecipient, q.recipient = recipient → q.recipientFee = n ∧ q.status = k.status
  blocked : recipient ∈ quotes.blockedRecipients ↔ k = .blocked
  total : quotes.totalRecipientFees =
    wrapped ((quoteRecipients sender messageBox deliveryFee (recipients.erase recipient) ⟨[], [], 0⟩ tables).1.totalRecipientFees
      + if k = .paymentRequired then n else 0)

/-! The request's integer as the fee that is stored. -/

theorem nearestF64_of_lt {n : Nat} (small : n < 2 ^ 53) : nearestF64 n = n := if_pos small

theorem wrapped_wrapped_add (a b : Int) : wrapped (wrapped a + b) = wrapped (a + b) := by
  simp only [wrapped, minI32]
  omega

/-- Reading a fee leaves what is read as it was. -/
theorem recipientFee_getRecipientFee (rows : List PermissionRow) (sender messageBox : String) :
    recipientFee (getRecipientFee rows sender messageBox).2 sender messageBox =
      recipientFee rows sender messageBox := by
  rw [← getRecipientFee_fst, ← getRecipientFee_fst]
  cases own : senderRow rows sender messageBox with
  | some r => simp only [getRecipientFee, own]
  | none =>
    cases wide : boxRow rows messageBox with
    | some r => simp only [getRecipientFee, own, wide]
    | none => simp [getRecipientFee, own, wide, senderRow_append_box, boxRow_append_box]

section Quoting
variable (sender messageBox : String) (deliveryFee : Int)

/-- What a recipient adds to the total. -/
def payableFee (tables : Tables) (recipient : String) : Int := max 0 (recipientFee (tables recipient) sender messageBox)

def quoteOf (tables : Tables) (recipient : String) : RecipientQuote :=
  let fee := recipientFee (tables recipient) sender messageBox
  ⟨recipient, messageBox, deliveryFee, fee, feeToStatus fee⟩

theorem recipientFee_update (tables : Tables) (recipient other : String) :
    recipientFee (Function.update tables recipient (getRecipientFee (tables recipient) sender messageBox).2 other)
      sender messageBox = recipientFee (tables other) sender messageBox := by
  by_cases same : other = recipient
  · subst same
    rw [Function.update_self, recipientFee_getRecipientFee]
  · rw [Function.update_of_ne same]

theorem quoteRecipients_eq (recipients : List String) (quotes : Quotes) (tables : Tables)
    (fits : wrapped quotes.totalRecipientFees = quotes.totalRecipientFees) :
    (quoteRecipients sender messageBox deliveryFee recipients quotes tables).1 =
      ⟨quotes.quotesByRecipient ++ recipients.map (quoteOf sender messageBox deliveryFee tables),
        quotes.blockedRecipients ++
          recipients.filter (fun r => recipientFee (tables r) sender messageBox = -1),
        wrapped (quotes.totalRecipientFees + (recipients.map (payableFee sender messageBox tables)).sum)⟩ := by
  induction recipients generalizing quotes tables with
  | nil => simp [quoteRecipients, fits]
  | cons recipient rest ih =>
    have updated := recipientFee_update sender messageBox tables recipient
    have total : (if recipientFee (tables recipient) sender messageBox = -1 then quotes.totalRecipientFees
        else if 0 < recipientFee (tables recipient) sender messageBox then
          wrapped (quotes.totalRecipientFees + recipientFee (tables recipient) sender messageBox)
        else quotes.totalRecipientFees) =
        wrapped (quotes.totalRecipientFees + payableFee sender messageBox tables recipient) := by
      unfold payableFee
      split
      · rw [max_eq_left (by omega), add_zero, fits]
      · split
        · rw [max_eq_right (by omega)]
        · rw [max_eq_left (by omega), add_zero, fits]
    rw [quoteRecipients]
    simp only [getRecipientFee_fst, total]
    rw [ih]
    · have quotesSame : quoteOf sender messageBox deliveryFee
          (Function.update tables recipient (getRecipientFee (tables recipient) sender messageBox).2) =
          quoteOf sender messageBox deliveryFee tables := by
        funext other
        simp only [quoteOf, updated]
      have feesSame : payableFee sender messageBox
          (Function.update tables recipient (getRecipientFee (tables recipient) sender messageBox).2) =
          payableFee sender messageBox tables := by
        funext other
        simp only [payableFee, updated]
      simp only [quotesSame, feesSame, updated, List.map_cons, List.sum_cons, List.filter_cons,
        wrapped_wrapped_add, add_assoc]
      congr 1
      · simp [quoteOf]
      · split <;> rename_i blocked <;> simp [blocked]
    · have again := wrapped_wrapped_add (quotes.totalRecipientFees + payableFee sender messageBox tables recipient) 0
      rwa [add_zero, add_zero] at again

end Quoting

end MessageRelay.Permissions
