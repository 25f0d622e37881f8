import Llmsnap.Go.Strings

/-! # The response writer `wrapHandler` wraps

`wrapHandler` reads the status and the `Content-Type` a handler left on gin's response writer. This
file models the parts of `net/http` and `github.com/gin-gonic/gin` involved, after their sources:

* **`Header`** — an `http.Header`, with `Set`, `Add`, `Del` and `Get` on keys put in canonical form
  by **`canonicalMIMEHeaderKey`** (`textproto.CanonicalMIMEHeaderKey`);
* **`Gin.ResponseWriter`** — gin's `responseWriter`: the status, whether the header was sent, and
  the header map. Its status changes with `WriteHeader` until the first write sends the header;
  after that a new status is ignored. -/

namespace Llmsnap

open Go

/-- A byte `httpguts` accepts in a header field name: an ASCII letter, digit, or one of
``!#$%&'*+-.^_`|~``. -/
def isTokenChar (c : Char) : Bool :=
  c.isAlphanum || "!#$%&'*+-.^_`|~".toList.contains c

/-- The canonical form of a valid key: upper case at the start and after each `-`, lower case
elsewhere. -/
def canonicalChars : Bool → List Char → List Char
  | _, [] => []
  | upper, c :: cs => (if upper then c.toUpper else c.toLower) :: canonicalChars (c = '-') cs

/-- `textproto.CanonicalMIMEHeaderKey(s)`: a key with a byte that is not a token character is
returned unchanged. -/
def canonicalMIMEHeaderKey (s : String) : String :=
  if s.toList.all isTokenChar then ⟨canonicalChars true s.toList⟩ else s

/-- An `http.Header`: each canonical key with its values. -/
abbrev Header := List (String × List String)

namespace Header

/-- The values stored under the canonical form of `key`. -/
def values (h : Header) (key : String) : List String :=
  ((h.find? (·.1 = canonicalMIMEHeaderKey key)).map (·.2)).getD []

/-- `Header.Get(key)`: the first value of the key, or `""`. -/
def get (h : Header) (key : String) : String := ((h.values key).head?).getD ""

/-- `Header.Del(key)`: the key and all its values removed. -/
def del (h : Header) (key : String) : Header := h.filter (·.1 ≠ canonicalMIMEHeaderKey key)

/-- `Header.Set(key, value)`: the key's values become `[value]`. -/
def set (h : Header) (key value : String) : Header :=
  h.del key ++ [(canonicalMIMEHeaderKey key, [value])]

/-- `Header.Add(key, value)`: `value` is appended to the key's values. -/
def add (h : Header) (key value : String) : Header :=
  h.del key ++ [(canonicalMIMEHeaderKey key, h.values key ++ [value])]

/-- A key set is read back by every spelling with the same canonical form. -/
theorem get_set (h : Header) {key key' : String} (value : String)
    (hk : canonicalMIMEHeaderKey key' = canonicalMIMEHeaderKey key) :
    (h.set key value).get key' = value := by
  have hnone : (h.del key).find? (·.1 = canonicalMIMEHeaderKey key) = none := by
    simp [del]
  simp [get, values, set, List.find?_append, hnone, hk]

end Header

namespace Gin

/-- The fields of gin's `responseWriter` that decide what `Status()` and `Header()` return. The byte
count `size` is kept only as `Written()`, which is all the status logic reads of it. -/
structure ResponseWriter where
  /-- `status`: `http.StatusOK` until `WriteHeader` changes it. -/
  status : Int
  /-- `Written()`: the header was sent. -/
  written : Bool
  /-- `Header()`: the response headers set so far. -/
  header : Header

namespace ResponseWriter

/-- `WriteHeader(code)`: a positive new code replaces the status until the header is sent; after
that gin only prints a warning. -/
def writeHeader (w : ResponseWriter) (code : Int) : ResponseWriter :=
  if 0 < code ∧ w.status ≠ code ∧ !w.written then { w with status := code } else w

/-- `WriteHeaderNow()`: the header goes out with the current status. `Write`, `WriteString` and
`Flush` call it first. -/
def writeHeaderNow (w : ResponseWriter) : ResponseWriter := { w with written := true }

end ResponseWriter

end Gin

end Llmsnap
