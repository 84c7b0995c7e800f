import Boundary.Text.Quoted
import Boundary.Host.Zoo
import Boundary.Host.Calculator
import Boundary.Host.Primes
import Boundary.Session.Run
import Boundary.Bench
import Boundary.Exchange.Rehearsal
import Boundary.Proofs.Release
import Boundary.Proofs.Primes.Results
import Boundary.Proofs.Session.Lifetimes
import Boundary.Proofs.Exchange.Snapshot
import Boundary.Proofs.Errors.Channel
import Boundary.Proofs.Iterator.Walk
import Boundary.Proofs.Host.Methods
import Boundary.Proofs.Zoo.Additions
import Boundary.Proofs.Zoo.Contents
import Boundary.Proofs.Zoo.Iteration
import Boundary.Proofs.Zoo.Refinement
import Boundary.Proofs.Tables
import Boundary.Proofs.Zoo.Loans
import Boundary.Proofs.Ownership.Typed
import Boundary.Proofs.Host.Tags
import Boundary.Proofs.Calculator.Finite
import Boundary.Proofs.Calculator.Enlisting
import Boundary.Proofs.Calculator.Failures
import Boundary.Proofs.Calculator.Injection
import Boundary.Proofs.Primes.Independence
import Boundary.Proofs.Primes.InRange
import Boundary.Proofs.Primes.Calculation
import Boundary.Proofs.Calculator.Clearing
import Boundary.Proofs.Calculator.Applying
import Boundary.Proofs.Calculator.Mapping
import Boundary.Proofs.Calculator.Combining
import Boundary.Proofs.Host.Admission
import Boundary.Proofs.Host.Borrowing
import Boundary.Proofs.Exchange.Widening
import Boundary.Proofs.Host.Asking
import Boundary.Proofs.Errors.Routing
import Boundary.Proofs.Exchange.Serving
import Boundary.Proofs.Host.LoadOrder
import Boundary.Proofs.Primes.Advance
import Boundary.Proofs.Cascade
import Boundary.Proofs.Primes.Loops
