import SearchCriteria.Chain.Weakest
import SearchCriteria.Limits.Location
import SearchCriteria.Query.Calls
import SearchCriteria.Query.Canonical
import SearchCriteria.Query.Printable
import SearchCriteria.Reader.Trace
import SearchCriteria.Sql.Quotation
import SearchCriteria.Sql.Reader
import SearchCriteria.Sql.Truth
import SearchCriteria.Proofs.Completion
import SearchCriteria.Proofs.RoundTrip
import SearchCriteria.Proofs.Quotation
import SearchCriteria.Proofs.Meaning
import SearchCriteria.Proofs.Combination
import SearchCriteria.Proofs.Cutoff
import SearchCriteria.Proofs.Distinction
import SearchCriteria.Proofs.Encoding
import SearchCriteria.Proofs.Reader.Guarded
import SearchCriteria.Proofs.Saving
import SearchCriteria.Proofs.Grouping
import SearchCriteria.Proofs.Branching
import SearchCriteria.Proofs.Reader.ClauseRefusal
import SearchCriteria.Proofs.Balance
import SearchCriteria.Proofs.Reader.Trace
import SearchCriteria.Proofs.Spelling
import SearchCriteria.Proofs.Separation
import SearchCriteria.Proofs.Continuation
import SearchCriteria.Proofs.Escaping
import SearchCriteria.Proofs.Reader.LastRead
import SearchCriteria.Proofs.Quoting
import SearchCriteria.Proofs.Recording
import SearchCriteria.Proofs.Ancestry
import SearchCriteria.Proofs.Chain.Ordering
import SearchCriteria.Proofs.Reader.Chain
import SearchCriteria.Proofs.Waiting
