import FileReceiver.Main
import FileReceiver.Proofs.Announcing
import FileReceiver.Proofs.Assigning
import FileReceiver.Proofs.Cancelling
import FileReceiver.Proofs.Containment
import FileReceiver.Proofs.Failures
import FileReceiver.Proofs.Hashing
import FileReceiver.Proofs.Independence
import FileReceiver.Proofs.Layers
import FileReceiver.Proofs.Lengths
import FileReceiver.Proofs.Numbering
import FileReceiver.Proofs.Pairing
import FileReceiver.Proofs.Precedence
import FileReceiver.Proofs.Records
import FileReceiver.Proofs.Resending
import FileReceiver.Proofs.Sanitizing
import FileReceiver.Proofs.Saving
import FileReceiver.Proofs.Scoping
import FileReceiver.Proofs.Searching
import FileReceiver.Proofs.Secrecy
import FileReceiver.Proofs.Sizes
import FileReceiver.Proofs.Stopping
import FileReceiver.Proofs.Strangers
import FileReceiver.Proofs.Survival
import FileReceiver.Proofs.Uploading
import FileReceiver.Proofs.Verdicts
