/-!
# Request methods

A method is any non-empty token.  Methods are compared as written, so `get` is
not `GET`.
-/

namespace HttpRoutes

def isMethodChar (c : Char) : Bool :=
  c.isAlphanum || "!#$%&'*+-.^_`|~".toList.contains c

def isMethodToken (text : String) : Bool :=
  !text.toList.isEmpty && text.toList.all isMethodChar

end HttpRoutes
