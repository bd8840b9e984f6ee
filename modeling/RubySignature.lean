import RubySignature.Double.Literal
import RubySignature.Proofs.Param.Decoding
import RubySignature.Proofs.Render.Depth
import RubySignature.Proofs.Render.Discipline
import RubySignature.Proofs.Render.Embedding
import RubySignature.Proofs.Render.Failure
import RubySignature.Proofs.Render.Lists
import RubySignature.Proofs.Render.Quoting
import RubySignature.Proofs.Sexp.Offences
import RubySignature.Proofs.Sexp.Parsing
import RubySignature.Proofs.Sexp.RoundTrip
import RubySignature.Proofs.Signature.Allowed
import RubySignature.Proofs.Signature.Completeness
import RubySignature.Proofs.Signature.Defaults
import RubySignature.Proofs.Signature.Disambiguation
import RubySignature.Proofs.Signature.Forwarding
import RubySignature.Proofs.Signature.Respelling
import RubySignature.Proofs.Signature.RoundTrip
import RubySignature.Render.Unparse
import RubySignature.Sexp.Printer
import RubySignature.Sexp.Reader
import RubySignature.Signature.Reader
